import Mathlib.Data.List.Basic
import Mathlib.Tactic.Common

/-!
# Objects that are allocated and freed

A heap remembers every object that was ever allocated, by its number, and freeing an object leaves a
gap. To read or write behind a gap or to free it once more is a fault, which is `none`. So what a
program does without a fault uses nothing that was freed and frees nothing twice, and an object that
is a gap at the end was freed exactly once.
-/

/-- The objects by number, with a gap for each that was freed. -/
structure OwnedHeap (α : Type*) where
  cells : List (Option α)
  deriving DecidableEq, Repr

namespace OwnedHeap

variable {α : Type*}

def empty : OwnedHeap α := ⟨[]⟩

def size (h : OwnedHeap α) : ℕ := h.cells.length

def read (h : OwnedHeap α) (p : ℕ) : Option α := h.cells[p]?.join

def alloc (h : OwnedHeap α) (v : α) : OwnedHeap α := ⟨h.cells ++ [some v]⟩

def write (h : OwnedHeap α) (p : ℕ) (v : α) : Option (OwnedHeap α) :=
  if (h.read p).isSome then some ⟨h.cells.set p (some v)⟩ else none

def free (h : OwnedHeap α) (p : ℕ) : Option (OwnedHeap α) :=
  if (h.read p).isSome then some ⟨h.cells.set p none⟩ else none

def freeOpt (h : OwnedHeap α) : Option ℕ → Option (OwnedHeap α)
  | none => some h
  | some p => h.free p

def Freed (h : OwnedHeap α) (p : ℕ) : Prop := h.cells[p]? = some none

section Lemmas

variable {h h' : OwnedHeap α} {p q : ℕ} {v w : α}

theorem read_of_size_le (hp : h.size ≤ p) : h.read p = none := by
  rw [read, List.getElem?_eq_none hp]
  rfl

theorem lt_size_of_read (hp : h.read p = some v) : p < h.size := by
  by_contra hle
  rw [read_of_size_le (Nat.le_of_not_lt hle)] at hp
  cases hp

@[simp] theorem size_alloc (h : OwnedHeap α) (v : α) : (h.alloc v).size = h.size + 1 := by
  rw [size, alloc, List.length_append, List.length_singleton, size]

@[simp] theorem read_alloc_self (h : OwnedHeap α) (v : α) : (h.alloc v).read h.size = some v := by
  rw [read, alloc, size, List.getElem?_concat_length]
  rfl

theorem read_alloc_of_lt (v : α) (hp : p < h.size) : (h.alloc v).read p = h.read p := by
  rw [read, alloc, List.getElem?_append_left hp, read]

theorem read_alloc_of_ne (v : α) (hp : p ≠ h.size) : (h.alloc v).read p = h.read p := by
  rcases Nat.lt_or_gt_of_ne hp with hlt | hgt
  · exact read_alloc_of_lt v hlt
  · rw [read_of_size_le (Nat.le_of_lt hgt), read_of_size_le]
    rw [size_alloc]
    exact hgt

theorem exists_free (hp : h.read p = some v) : ∃ h', h.free p = some h' := by
  rw [free, hp]
  exact ⟨_, rfl⟩

theorem of_free (hfree : h.free p = some h') :
    h'.size = h.size ∧ h'.Freed p ∧ ∀ q, q ≠ p → h'.read q = h.read q := by
  unfold free at hfree
  split_ifs at hfree with hp
  obtain ⟨v, hv⟩ := Option.isSome_iff_exists.mp hp
  obtain rfl := Option.some.inj hfree
  refine ⟨List.length_set, List.getElem?_set_self (lt_size_of_read hv), fun q hq => ?_⟩
  rw [read, List.getElem?_set_ne hq.symm, read]

theorem Freed.read (hp : h.Freed p) : h.read p = none := by
  rw [OwnedHeap.read, hp]
  rfl

theorem freed_iff : h.Freed p ↔ p < h.size ∧ h.read p = none := by
  constructor
  · intro hp
    refine ⟨?_, hp.read⟩
    by_contra hle
    rw [Freed, List.getElem?_eq_none (Nat.le_of_not_lt hle)] at hp
    cases hp
  · rintro ⟨hlt, hread⟩
    rw [read, List.getElem?_eq_getElem hlt, Option.join_some] at hread
    rw [Freed, List.getElem?_eq_getElem hlt, hread]

end Lemmas

/-- One object is where it was or at a new place, or there was none. No other has changed, and what
came up in between is gone. -/
structure Moved (h h' : OwnedHeap α) (v v' : Option ℕ) : Prop where
  place : ∀ p, v' = some p → v = some p ∨ h.size ≤ p
  grows : h.size ≤ h'.size
  frame : ∀ q, q < h.size → v ≠ some q → h'.read q = h.read q
  freed : ∀ q, h.size ≤ q ∨ v = some q → v' ≠ some q → h'.read q = none

variable {h h' h'' : OwnedHeap α} {v v' v'' : Option ℕ} {x : α}

namespace Moved

theorem refl (h : OwnedHeap α) (v : Option ℕ) : Moved h h v v where
  place := fun _ hp => Or.inl hp
  grows := Nat.le_refl _
  frame := fun _ _ _ => rfl
  freed := fun _ hq hne => read_of_size_le (hq.resolve_right hne)

theorem trans (h₁ : Moved h h' v v') (h₂ : Moved h' h'' v' v'') : Moved h h'' v v'' where
  place := by
    intro p hp
    rcases h₂.place p hp with hp' | hle
    · exact h₁.place p hp'
    · exact Or.inr (Nat.le_trans h₁.grows hle)
  grows := Nat.le_trans h₁.grows h₂.grows
  frame := by
    intro q hq hne
    have hne' : v' ≠ some q := by
      intro heq
      rcases h₁.place q heq with hv | hle
      · exact hne hv
      · omega
    rw [h₂.frame q (Nat.lt_of_lt_of_le hq h₁.grows) hne', h₁.frame q hq hne]
  freed := by
    intro q hq hne
    by_cases hv' : v' = some q
    · exact h₂.freed q (Or.inr hv') hne
    · rcases Nat.lt_or_ge q h'.size with hlt | hge
      · rw [h₂.frame q hlt hv', h₁.freed q hq hv']
      · exact h₂.freed q (Or.inl hge) hne

theorem adopt (h : OwnedHeap α) (x : α) :
    Moved h (h.alloc x) none (some h.size) where
  place := fun _ hp => Or.inr (Nat.le_of_eq (Option.some.inj hp))
  grows := by
    rw [size_alloc]
    exact Nat.le_succ _
  frame := fun q hq _ => read_alloc_of_lt x hq
  freed := fun q hq hne => by
    rw [read_alloc_of_ne x (fun heq => hne (congrArg some heq.symm)),
      read_of_size_le (hq.resolve_right nofun)]

/-- An object that is freed again does not show. -/
theorem of_temporary (hm : Moved (h.alloc x) h' v v') (hfree : h'.free h.size = some h'') :
    Moved h h'' v v' := by
  have hsize : (h.alloc x).size = h.size + 1 := h.size_alloc x
  obtain ⟨hlen, hgone, hframe⟩ := of_free hfree
  have hgrows := hm.grows
  refine ⟨?_, by omega, fun q hq hne => ?_, fun q hq hne => ?_⟩
  · intro p hp
    rcases hm.place p hp with hv | hle
    · exact Or.inl hv
    · exact Or.inr (by omega)
  · rw [hframe q (by omega), hm.frame q (by omega) hne, read_alloc_of_lt x hq]
  · by_cases hq' : q = h.size
    · rw [hq']
      exact hgone.read
    · rw [hframe q hq']
      refine hm.freed q ?_ hne
      rcases hq with hle | heq
      · exact Or.inl (by omega)
      · exact Or.inr heq

end Moved

section Replace

variable {p : ℕ} {w : α}

theorem exists_write (hp : h.read p = some w) (x : α) :
    ∃ h', h.write p x = some h' ∧ h'.read p = some x ∧ h.Moved h' (some p) (some p) := by
  have hlt := lt_size_of_read hp
  have hframe : ∀ q, some p ≠ some q → (⟨h.cells.set p (some x)⟩ : OwnedHeap α).read q =
      h.read q := by
    intro q hq
    rw [read, List.getElem?_set_ne (fun heq => hq (congrArg some heq)), read]
  refine ⟨⟨h.cells.set p (some x)⟩, ?_, ?_, fun _ => Or.inl, ?_, fun q _ => hframe q, ?_⟩
  · rw [write, hp]
    rfl
  · rw [read, List.getElem?_set_self hlt]
    rfl
  · exact Nat.le_of_eq List.length_set.symm
  · intro q hq hne
    rw [hframe q hne, read_of_size_le (hq.resolve_right hne)]

theorem exists_replace (hp : h.read p = some w) (x : α) :
    ∃ h', (h.alloc x).free p = some h' ∧ h'.read h.size = some x ∧
      h.Moved h' (some p) (some h.size) := by
  have hlt := lt_size_of_read hp
  have hread : (h.alloc x).read p = some w := by rw [read_alloc_of_lt x hlt, hp]
  obtain ⟨h', hfree⟩ := exists_free hread
  obtain ⟨hsize, hfreed, hframe⟩ := of_free hfree
  rw [size_alloc] at hsize
  refine ⟨h', hfree, ?_, fun q hq => Or.inr (Nat.le_of_eq (Option.some.inj hq)), by omega, ?_, ?_⟩
  · rw [hframe _ (by omega), read_alloc_self]
  · intro q hq hne
    rw [hframe q (fun heq => hne (congrArg some heq.symm)), read_alloc_of_lt x hq]
  · intro q hq hne
    by_cases hqp : q = p
    · rw [hqp]
      exact hfreed.read
    · have hle := hq.resolve_right (fun heq => hqp (Option.some.inj heq).symm)
      rw [hframe q hqp, read_alloc_of_ne x (fun heq => hne (congrArg some heq.symm)),
        read_of_size_le hle]

/-- An object that is there is freed, with nothing in its place. -/
theorem Moved.release (hfree : h.free p = some h') : h.Moved h' (some p) none := by
  obtain ⟨hsize, hfreed, hframe⟩ := of_free hfree
  refine ⟨nofun, Nat.le_of_eq hsize.symm, fun q _ hne => ?_, fun q hq _ => ?_⟩
  · exact hframe q (fun heq => hne (congrArg some heq.symm))
  · by_cases hqp : q = p
    · rw [hqp]
      exact hfreed.read
    · rw [hframe q hqp,
        read_of_size_le (hq.resolve_right (fun heq => hqp (Option.some.inj heq).symm))]

/-- With nothing left of what came up, every object from before is where it was. -/
theorem Moved.keep (hm : h.Moved h' none none) (p : ℕ) : h.Moved h' (some p) (some p) where
  place := fun _ => Or.inl
  grows := hm.grows
  frame := fun q hq _ => hm.frame q hq nofun
  freed := fun q hq hne => hm.freed q (Or.inl (hq.resolve_right hne)) nofun

theorem Moved.instead (hm : h.Moved h' none v) (hfree : h'.free p = some h'') :
    h.Moved h'' (some p) v := by
  obtain ⟨hsize, hfreed, hframe⟩ := of_free hfree
  refine ⟨fun q hq => ?_, hsize ▸ hm.grows, fun q hq hne => ?_, fun q hq hne => ?_⟩
  · exact Or.inr ((hm.place q hq).resolve_left nofun)
  · rw [hframe q (fun heq => hne (congrArg some heq.symm)), hm.frame q hq nofun]
  · by_cases hqp : q = p
    · rw [hqp]
      exact hfreed.read
    · have hle := hq.resolve_right (fun heq => hqp (Option.some.inj heq).symm)
      rw [hframe q hqp, hm.freed q (Or.inl hle) hne]

end Replace

end OwnedHeap
