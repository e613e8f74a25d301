import NanoMQ.OwnedHeap

/-!
# Variables that own an object

A variable that is to own the one object of its kind: a new object is created into it, and when the
object is released the variable becomes `NULL`. To create a second object before the first one is
released is a fault, as it is to release an object twice. The variable is the sole owner if no
object of the kind but the one it points to is left.
-/

structure OwnerSlot (α : Type*) where
  heap : OwnedHeap α
  ptr : Option ℕ

namespace OwnerSlot

variable {α : Type*}

def null : OwnerSlot α := ⟨.empty, none⟩

/-- The variable gets a new object, which must not be in the place of another. -/
def create (s : OwnerSlot α) (x : α) : Option (OwnerSlot α) :=
  if s.ptr.isSome then none else some ⟨s.heap.alloc x, some s.heap.size⟩

def release (s : OwnerSlot α) : Option (OwnerSlot α) :=
  s.ptr.bind (fun p => (s.heap.free p).map (⟨·, none⟩))

def releaseIf (s : OwnerSlot α) : Option (OwnerSlot α) :=
  if s.ptr.isSome then s.release else some s

/-- The object that the variable points to is the only one that was not released. -/
def Sole (s : OwnerSlot α) : Prop := ∀ p, (s.heap.read p).isSome = true ↔ s.ptr = some p

variable {s : OwnerSlot α} {p q : ℕ}

theorem sole_null : (null : OwnerSlot α).Sole := fun _ => ⟨nofun, nofun⟩

theorem Sole.isSome_read (h : s.Sole) (hp : s.ptr = some p) : (s.heap.read p).isSome = true :=
  (h p).mpr hp

theorem create_of_null (hnull : s.ptr = none) (x : α) :
    s.create x = some ⟨s.heap.alloc x, some s.heap.size⟩ := by
  rw [OwnerSlot.create, hnull]
  rfl

theorem Sole.alloc (h : s.Sole) (hnull : s.ptr = none) (x : α) :
    (⟨s.heap.alloc x, some s.heap.size⟩ : OwnerSlot α).Sole := by
  intro p
  by_cases hp : p = s.heap.size
  · subst hp
    exact iff_of_true (Option.isSome_of_eq_some (s.heap.read_alloc_self x)) rfl
  · have hread : ((s.heap.alloc x).read p).isSome = true ↔ s.ptr = some p := by
      rw [OwnedHeap.read_alloc_of_ne x hp]
      exact h p
    refine hread.trans (iff_of_false ?_ ?_)
    · rw [hnull]
      exact nofun
    · exact fun heq => hp (Option.some.inj heq).symm

theorem Sole.exists_release (h : s.Sole) (hp : s.ptr = some p) :
    ∃ s', s.release = some s' ∧ s'.Sole ∧ s'.ptr = none := by
  obtain ⟨x, hx⟩ := Option.isSome_iff_exists.mp (h.isSome_read hp)
  obtain ⟨heap, hfree⟩ := OwnedHeap.exists_free hx
  obtain ⟨-, hfreed, hframe⟩ := OwnedHeap.of_free hfree
  refine ⟨⟨heap, none⟩, ?_, fun q => iff_of_false ?_ nofun, rfl⟩
  · rw [release, hp, Option.bind_some, hfree]
    rfl
  · by_cases hq : q = p
    · rw [hq, hfreed.read]
      exact nofun
    · rw [hframe q hq, h q, hp]
      exact fun heq => hq (Option.some.inj heq).symm

theorem Sole.exists_releaseIf (h : s.Sole) :
    ∃ s', s.releaseIf = some s' ∧ s'.Sole ∧ s'.ptr = none := by
  cases hp : s.ptr with
  | none =>
    refine ⟨s, ?_, h, hp⟩
    rw [releaseIf, hp]
    rfl
  | some p =>
    obtain ⟨s', hs', hsole, hnull⟩ := h.exists_release hp
    refine ⟨s', ?_, hsole, hnull⟩
    rw [releaseIf, hp, ← hs']
    rfl

/-- Where the variable is `NULL`, every object was released. -/
theorem Sole.freed (h : s.Sole) (hnull : s.ptr = none) (hp : p < s.heap.size) : s.heap.Freed p := by
  have hread : ¬ (s.heap.read p).isSome = true := by
    rw [h p, hnull]
    exact nofun
  exact OwnedHeap.freed_iff.mpr ⟨hp, Option.not_isSome_iff_eq_none.mp hread⟩

theorem Sole.moved {h' : OwnedHeap α} {x : α} (h : s.Sole) (hread : h'.read q = some x)
    (hm : s.heap.Moved h' s.ptr (some q)) : (⟨h', some q⟩ : OwnerSlot α).Sole := by
  intro p
  by_cases hp : some q = some p
  · cases hp
    exact iff_of_true (Option.isSome_of_eq_some hread) rfl
  · refine iff_of_false ?_ hp
    rw [Bool.not_eq_true, Option.isSome_eq_false_iff, Option.isNone_iff_eq_none]
    by_cases hold : s.heap.size ≤ p ∨ s.ptr = some p
    · exact hm.freed p hold hp
    · obtain ⟨hlt, hne⟩ := not_or.mp hold
      rw [hm.frame p (Nat.lt_of_not_le hlt) hne, ← Option.not_isSome_iff_eq_none, h p]
      exact hne

end OwnerSlot
