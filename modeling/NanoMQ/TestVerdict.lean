import Mathlib.Logic.Basic
import Mathlib.Data.List.Basic

/-!
# Conjunctions of tests that may slip

A verdict is the conjunction of a list of tests. A test that slips gives the opposite of the answer
it stands for. One slip need not show: another test may fail anyway, or two slips may go opposite
ways. `all_iff_holds_iff` says exactly when the verdict is still the right one.
-/

namespace TestVerdict

variable {τ : Type*}

/-- The tests that slip decide the verdict: all others hold, and either all of the ones that slip
should hold or none of them should. -/
structure Misled (Holds Slips : τ → Prop) (ts : List τ) : Prop where
  slips : ∃ t ∈ ts, Slips t
  rest : ∀ t ∈ ts, ¬ Slips t → Holds t
  oneWay : (∀ t ∈ ts, Slips t → Holds t) ∨ ∀ t ∈ ts, Slips t → ¬ Holds t

theorem not_misled_of_forall {Holds Slips : τ → Prop} {ts : List τ} (h : ∀ t ∈ ts, ¬ Slips t) :
    ¬ Misled Holds Slips ts := by
  rintro ⟨⟨t, ht, hslip⟩, -, -⟩
  exact h t ht hslip

variable {passes : τ → Bool} {Holds Slips : τ → Prop} {ts : List τ}

/-- The verdict is right unless it is misled. -/
theorem all_iff_holds_iff (h : ∀ t ∈ ts, passes t = true ↔ Xor (Holds t) (Slips t)) :
    (ts.all passes = true ↔ ∀ t ∈ ts, Holds t) ↔ ¬ Misled Holds Slips ts := by
  rw [List.all_eq_true]
  constructor
  · rintro hright ⟨⟨t, ht, hslip⟩, hrest, hall | hnone⟩
    · have hholds : ∀ t ∈ ts, Holds t := fun t ht =>
        (Classical.em (Slips t)).elim (hall t ht) (hrest t ht)
      rcases (h t ht).mp (hright.mpr hholds t ht) with ⟨-, hno⟩ | ⟨-, hno⟩
      · exact hno hslip
      · exact hno (hholds t ht)
    · have hpass : ∀ t ∈ ts, passes t = true := fun t ht =>
        (h t ht).mpr ((Classical.em (Slips t)).elim (fun hs => Or.inr ⟨hs, hnone t ht hs⟩)
          (fun hs => Or.inl ⟨hrest t ht hs, hs⟩))
      exact hnone t ht hslip (hright.mp hpass t ht)
  · intro hno
    constructor
    · intro hpass t ht
      by_contra hnot
      have hslip : ∀ t ∈ ts, Slips t → ¬ Holds t := fun t ht hs hh =>
        ((h t ht).mp (hpass t ht)).elim (fun hx => hx.2 hs) (fun hx => hx.2 hh)
      have hrest : ∀ t ∈ ts, ¬ Slips t → Holds t := fun t ht hs =>
        ((h t ht).mp (hpass t ht)).elim (fun hx => hx.1) (fun hx => absurd hx.1 hs)
      have ht' : Slips t := not_not.mp (mt (hrest t ht) hnot)
      exact hno ⟨⟨t, ht, ht'⟩, hrest, Or.inr hslip⟩
    · intro hholds t ht
      by_contra hnot
      have hs : Slips t := not_not.mp (fun hs => hnot ((h t ht).mpr (Or.inl ⟨hholds t ht, hs⟩)))
      exact hno ⟨⟨t, ht, hs⟩, fun t ht _ => hholds t ht, Or.inl (fun t ht _ => hholds t ht)⟩

end TestVerdict
