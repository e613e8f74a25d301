import Mathlib.Data.Nat.Notation

/-!
# Running a machine back to rest

A machine is woken with one input after the other. Once it has left its resting states it goes on
until it is back in one, or until it is not woken any more. What each step keeps is kept by every
such run, however far it gets.
-/

namespace Cycle

variable {σ ε : Type*} (step : ε → σ → σ) (rest : σ → Bool)

def settle : List ε → σ → σ
  | [], s => s
  | e :: es, s => if rest s then s else settle es (step e s)

variable {step rest}

theorem settle_of_rest {s : σ} (h : rest s = true) (es : List ε) : settle step rest es s = s := by
  cases es with
  | nil => rfl
  | cons e es => exact if_pos h

theorem settle_cons_of_active {s : σ} (h : rest s = false) (e : ε) (es : List ε) :
    settle step rest (e :: es) s = settle step rest es (step e s) := by
  rw [settle, h]
  rfl

/-- What every step from an active state keeps holds at the end of a run. -/
theorem settle_invariant {I : σ → Prop} (hstep : ∀ e s, rest s = false → I s → I (step e s))
    (es : List ε) {s : σ} (hs : I s) : I (settle step rest es s) := by
  induction es generalizing s with
  | nil => exact hs
  | cons e es ih =>
    cases hr : rest s with
    | true =>
      rw [settle_of_rest hr]
      exact hs
    | false =>
      rw [settle_cons_of_active hr]
      exact ih (hstep e s hr hs)

section Fallible

variable (step : ε → σ → Option σ) (rest : σ → Bool)

def settleM : List ε → σ → Option σ
  | [], s => some s
  | e :: es, s => if rest s then some s else (step e s).bind (settleM es)

variable {step rest}

/-- Where every step from an active state is defined and comes closer to rest, a machine that is
woken often enough gets there, with what the steps keep. -/
theorem exists_settleM {I : σ → Prop} {E : ε → Prop} {rank : σ → ℕ}
    (hstep : ∀ e s, E e → rest s = false → I s → ∃ s', step e s = some s' ∧ I s' ∧ rank s' < rank s)
    {es : List ε} (hes : ∀ e ∈ es, E e) {s : σ} (hs : I s) (hrank : rank s ≤ es.length)
    (hzero : ∀ s, I s → rank s = 0 → rest s = true) :
    ∃ s', settleM step rest es s = some s' ∧ rest s' = true ∧ I s' := by
  induction es generalizing s with
  | nil => exact ⟨s, rfl, hzero s hs (Nat.le_zero.mp hrank), hs⟩
  | cons e es ih =>
    rw [settleM]
    cases hr : rest s with
    | true => exact ⟨s, rfl, hr, hs⟩
    | false =>
      obtain ⟨t, ht, htI, hlt⟩ := hstep e s (hes e List.mem_cons_self) hr hs
      rw [List.length_cons] at hrank
      obtain ⟨s', hs', hrest, hI⟩ :=
        ih (fun b hb => hes b (List.mem_cons_of_mem e hb)) htI
          (Nat.le_of_lt_succ (Nat.lt_of_lt_of_le hlt hrank))
      refine ⟨s', ?_, hrest, hI⟩
      rw [if_neg Bool.false_ne_true, ht]
      exact hs'

end Fallible

end Cycle
