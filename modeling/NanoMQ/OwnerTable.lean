import NanoMQ.OwnedHeap
import Mathlib.Logic.Function.Basic

/-!
# Many variables that own an object

A family of variables, each of which is `NULL` or points to an object of a heap. `OwnedBy` says that
every object that is left has exactly one owner and that no variable points to an object that is
gone. A variable may get another object, or none, while the heap follows, and once all variables are
`NULL` nothing is left.
-/

namespace OwnedHeap

variable {α ι : Type*} {h h' : OwnedHeap α} {ptr : ι → Option ℕ} {i : ι} {p : ℕ}

structure OwnedBy (h : OwnedHeap α) (ptr : ι → Option ℕ) : Prop where
  live : ∀ p, (h.read p).isSome = true ↔ ∃ i, ptr i = some p
  inj : ∀ i j p, ptr i = some p → ptr j = some p → i = j

namespace OwnedBy

theorem empty : (OwnedHeap.empty : OwnedHeap α).OwnedBy (fun _ : ι => none) where
  live := by
    intro p
    refine iff_of_false Bool.false_ne_true ?_
    rintro ⟨i, hi⟩
    cases hi
  inj := by
    intro i j p hi
    cases hi

theorem exists_read (hown : h.OwnedBy ptr) (hp : ptr i = some p) : ∃ x, h.read p = some x :=
  Option.isSome_iff_exists.mp ((hown.live p).mpr ⟨i, hp⟩)

theorem lt_size (hown : h.OwnedBy ptr) (hp : ptr i = some p) : p < h.size := by
  obtain ⟨x, hx⟩ := hown.exists_read hp
  exact lt_size_of_read hx

theorem freed (hown : h.OwnedBy ptr) (hnull : ∀ i, ptr i = none) (hp : p < h.size) : h.Freed p := by
  refine freed_iff.mpr ⟨hp, Option.not_isSome_iff_eq_none.mp ?_⟩
  rw [hown.live p]
  rintro ⟨i, hi⟩
  rw [hnull i] at hi
  cases hi

theorem read_of_ne {v : Option ℕ} {j : ι} (hown : h.OwnedBy ptr) (hm : h.Moved h' (ptr i) v)
    (hji : j ≠ i) (hp : ptr j = some p) : h'.read p = h.read p :=
  hm.frame p (hown.lt_size hp) (fun hi => hji (hown.inj j i p hp hi))

theorem exists_freeOpt (hown : h.OwnedBy ptr) (i : ι) :
    ∃ h', h.freeOpt (ptr i) = some h' ∧ h.Moved h' (ptr i) none := by
  cases hp : ptr i with
  | none => exact ⟨h, rfl, Moved.refl h none⟩
  | some p =>
    obtain ⟨x, hx⟩ := hown.exists_read hp
    obtain ⟨h', hfree⟩ := exists_free hx
    exact ⟨h', hfree, Moved.release hfree⟩

variable [DecidableEq ι]

theorem moved {v : Option ℕ} (hown : h.OwnedBy ptr) (hm : h.Moved h' (ptr i) v)
    (hread : ∀ p, v = some p → (h'.read p).isSome = true) :
    h'.OwnedBy (Function.update ptr i v) where
  live := by
    intro p
    constructor
    · intro hp
      by_cases hv : v = some p
      · exact ⟨i, by rw [Function.update_self, hv]⟩
      -- What is not the object of the variable is an object from before.
      have hold : p < h.size ∧ ptr i ≠ some p := by
        rw [← Nat.not_le, ← not_or]
        intro hor
        rw [hm.freed p hor hv] at hp
        cases hp
      rw [hm.frame p hold.1 hold.2, hown.live p] at hp
      obtain ⟨j, hj⟩ := hp
      refine ⟨j, ?_⟩
      rw [Function.update_of_ne _, hj]
      rintro rfl
      exact hold.2 hj
    · rintro ⟨j, hj⟩
      rw [Function.update_apply] at hj
      split_ifs at hj with hji
      · exact hread p hj
      · rw [hown.read_of_ne hm hji hj, hown.live p]
        exact ⟨j, hj⟩
  inj := by
    -- An object of another variable is not the new one.
    have hother (k : ι) (p : ℕ) (hk : ptr k = some p) (hv : v = some p) : k = i := by
      rcases hm.place p hv with hi | hle
      · exact hown.inj k i p hk hi
      · exact absurd hle (Nat.not_le.mpr (hown.lt_size hk))
    intro j k p hj hk
    rw [Function.update_apply] at hj hk
    split_ifs at hj hk with hji hki hki
    · rw [hji, hki]
    · exact absurd (hother k p hk hj) hki
    · exact absurd (hother j p hj hk) hji
    · exact hown.inj j k p hj hk

end OwnedBy

/-- To free what is gone has no effect, or it is freed now. Either way it is gone. -/
theorem read_freeOpt_getD {v : Option ℕ} (hp : (((h.freeOpt v).getD h).read p).isSome = true) :
    (h.read p).isSome = true ∧ v ≠ some p := by
  cases v with
  | none => exact ⟨hp, (Option.some_ne_none p).symm⟩
  | some q =>
    cases hfree : h.free q with
    | none =>
      rw [freeOpt, hfree, Option.getD_none] at hp
      refine ⟨hp, ?_⟩
      rintro ⟨⟩
      obtain ⟨x, hx⟩ := Option.isSome_iff_exists.mp hp
      obtain ⟨h', hsome⟩ := exists_free hx
      exact absurd (hfree.symm.trans hsome) (Option.some_ne_none h').symm
    | some h' =>
      rw [freeOpt, hfree, Option.getD_some] at hp
      obtain ⟨-, hfreed, hframe⟩ := of_free hfree
      have hne : p ≠ q := by
        rintro rfl
        rw [hfreed.read] at hp
        cases hp
      rw [hframe p hne] at hp
      exact ⟨hp, fun heq => hne (Option.some.inj heq).symm⟩

theorem size_freeOpt_getD (h : OwnedHeap α) (v : Option ℕ) :
    ((h.freeOpt v).getD h).size = h.size := by
  cases v with
  | none => rfl
  | some q =>
    cases hfree : h.free q with
    | none =>
      rw [freeOpt, hfree]
      rfl
    | some h' =>
      rw [freeOpt, hfree]
      exact (of_free hfree).1

end OwnedHeap
