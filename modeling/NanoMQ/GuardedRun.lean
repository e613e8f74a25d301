import Mathlib.Data.Option.Basic

/-!
# Invariants of runs

A run goes through a list of inputs by a step that may be undefined. `AllSteps` says that each input
meets a condition on the state before it; what every step under the condition keeps then holds at
the end of the run. `EveryState` says that the run is defined and that all its states have a
property; `Throughout` is about the states and steps of a run up to where it is undefined.
-/

namespace GuardedRun

variable {σ α : Type*} {step : σ → α → Option σ}

/-- Each input of a run meets a condition on the state before it. -/
def AllSteps (step : σ → α → Option σ) (C : σ → α → Prop) : σ → List α → Prop
  | _, [] => True
  | s, a :: as => C s a ∧ (step s a).elim True (fun s' => AllSteps step C s' as)

instance decidableAllSteps (step : σ → α → Option σ) (C : σ → α → Prop)
    [∀ s a, Decidable (C s a)] : ∀ s as, Decidable (AllSteps step C s as)
  | _, [] => inferInstanceAs (Decidable True)
  | s, a :: as =>
      have : Decidable ((step s a).elim True (fun s' => AllSteps step C s' as)) :=
        match step s a with
        | none => inferInstanceAs (Decidable True)
        | some s' => decidableAllSteps step C s' as
      inferInstanceAs (Decidable (_ ∧ _))

/-- What every step under the condition keeps holds after a run. -/
theorem run_invariant {C : σ → α → Prop} {I : σ → Prop}
    (hstep : ∀ s a s', C s a → I s → step s a = some s' → I s') {s s' : σ} {as : List α}
    (hC : AllSteps step C s as) (hI : I s) (hrun : as.foldlM step s = some s') : I s' := by
  induction as generalizing s with
  | nil =>
    obtain rfl := Option.some.inj hrun
    exact hI
  | cons a as ih =>
    obtain ⟨t, ht, hrest⟩ := Option.bind_eq_some_iff.mp hrun
    obtain ⟨hfirst, hlater⟩ := hC
    rw [ht] at hlater
    exact ih hlater (hstep s a t hfirst hI ht) hrest

theorem AllSteps.append {C : σ → α → Prop} {s s' : σ} {as bs : List α}
    (h : AllSteps step C s (as ++ bs)) (hrun : as.foldlM step s = some s') :
    AllSteps step C s' bs := by
  induction as generalizing s with
  | nil =>
    obtain rfl := Option.some.inj hrun
    exact h
  | cons a as ih =>
    obtain ⟨t, ht, hrest⟩ := Option.bind_eq_some_iff.mp hrun
    obtain ⟨-, hlater⟩ := h
    rw [ht] at hlater
    exact ih hlater hrest

theorem allSteps_of_forall {C : σ → α → Prop} {as : List α} (hC : ∀ s, ∀ a ∈ as, C s a) (s : σ) :
    AllSteps step C s as := by
  induction as generalizing s with
  | nil => trivial
  | cons a as ih =>
    refine ⟨hC s a List.mem_cons_self, ?_⟩
    cases step s a with
    | none => trivial
    | some t => exact ih (fun s b hb => hC s b (List.mem_cons_of_mem a hb)) t

theorem run_invariant_of_step {I : σ → Prop} (hstep : ∀ s a s', I s → step s a = some s' → I s')
    {s s' : σ} {as : List α} (hI : I s) (hrun : as.foldlM step s = some s') : I s' :=
  run_invariant (C := fun _ _ => True) (fun s a s' _ => hstep s a s')
    (allSteps_of_forall (fun _ _ _ => trivial) s) hI hrun

/-- Conditions that agree as long as an invariant holds, which the second one keeps, are met along
the same runs. -/
theorem allSteps_congr {C D : σ → α → Prop} {I : σ → Prop} {E : α → Prop}
    (hiff : ∀ s a, E a → I s → (C s a ↔ D s a))
    (hstep : ∀ s a s', E a → D s a → I s → step s a = some s' → I s') {as : List α}
    (hE : ∀ a ∈ as, E a) {s : σ} (hI : I s) : AllSteps step C s as ↔ AllSteps step D s as := by
  induction as generalizing s with
  | nil => exact Iff.rfl
  | cons a as ih =>
    obtain ⟨ha, has⟩ := List.forall_mem_cons.mp hE
    rw [AllSteps, AllSteps, hiff s a ha hI]
    apply and_congr_right
    intro hD
    cases hs : step s a with
    | none => exact Iff.rfl
    | some t => exact ih has (hstep s a t ha hD hI hs)

/-- The run is defined and goes only through states with the property. -/
def EveryState (step : σ → α → Option σ) (I : σ → Prop) : σ → List α → Prop
  | s, [] => I s
  | s, a :: as => I s ∧ ∃ s', step s a = some s' ∧ EveryState step I s' as

theorem EveryState.start {I : σ → Prop} {s : σ} {as : List α} (h : EveryState step I s as) :
    I s := by
  cases as with
  | nil => exact h
  | cons a as => exact h.1

/-- Where a step from a state with the property leads to one again exactly under the condition, a
run stays among them exactly if all its steps meet the condition. -/
theorem everyState_iff_allSteps {C : σ → α → Prop} {I : σ → Prop}
    (hstep : ∀ s a, I s → ∃ s', step s a = some s' ∧ (I s' ↔ C s a)) {s : σ} {as : List α}
    (hI : I s) : EveryState step I s as ↔ AllSteps step C s as := by
  induction as generalizing s with
  | nil => exact iff_of_true hI trivial
  | cons a as ih =>
    obtain ⟨t, ht, hiff⟩ := hstep s a hI
    rw [EveryState, AllSteps, ht, Option.elim_some]
    constructor
    · rintro ⟨-, s', hs', hrest⟩
      obtain rfl := Option.some.inj hs'
      have hnext := hrest.start
      exact ⟨hiff.mp hnext, (ih hnext).mp hrest⟩
    · rintro ⟨hfirst, hrest⟩
      have hnext := hiff.mpr hfirst
      exact ⟨hI, t, rfl, (ih hnext).mpr hrest⟩

/-- A run goes only through states with a property that follows from one which every step keeps. -/
theorem everyState_of_step {I J : σ → Prop} (hstep : ∀ s a, J s → ∃ s', step s a = some s' ∧ J s')
    (himp : ∀ s, J s → I s) {s : σ} {as : List α} (hJ : J s) : EveryState step I s as := by
  induction as generalizing s with
  | nil => exact himp s hJ
  | cons a as ih =>
    obtain ⟨t, ht, hnext⟩ := hstep s a hJ
    exact ⟨himp s hJ, t, ht, ih hnext⟩

def Throughout (step : σ → α → Option σ) (I : σ → Prop) (T : σ → α → σ → Prop) : σ → List α → Prop
  | s, [] => I s
  | s, a :: as => I s ∧ ∀ s', step s a = some s' → T s a s' ∧ Throughout step I T s' as

theorem throughout_of_allSteps {C : σ → α → Prop} {I : σ → Prop} {T : σ → α → σ → Prop}
    (hstep : ∀ s a s', C s a → I s → step s a = some s' → I s' ∧ T s a s') {s : σ} {as : List α}
    (hC : AllSteps step C s as) (hI : I s) : Throughout step I T s as := by
  induction as generalizing s with
  | nil => exact hI
  | cons a as ih =>
    obtain ⟨hfirst, hrest⟩ := hC
    refine ⟨hI, fun t ht => ?_⟩
    obtain ⟨hnext, hdone⟩ := hstep s a t hfirst hI ht
    rw [ht] at hrest
    exact ⟨hdone, ih hrest hnext⟩

theorem Throughout.final {I : σ → Prop} {T : σ → α → σ → Prop} {s s' : σ} {as : List α}
    (h : Throughout step I T s as) (hrun : as.foldlM step s = some s') : I s' := by
  induction as generalizing s with
  | nil =>
    obtain rfl := Option.some.inj hrun
    exact h
  | cons a as ih =>
    obtain ⟨t, ht, hrest⟩ := Option.bind_eq_some_iff.mp hrun
    exact ih (h.2 t ht).2 hrest

end GuardedRun
