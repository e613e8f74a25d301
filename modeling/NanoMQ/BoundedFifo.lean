import Mathlib.Data.List.Basic

/-!
# Bounded queues

A first-in first-out queue of a fixed capacity. What is taken out is the oldest entry, and what does
not fit is not put in.
-/

structure BoundedFifo (α : Type*) where
  cap : ℕ
  items : List α
  le_cap : items.length ≤ cap

namespace BoundedFifo

variable {α : Type*}

def empty (cap : ℕ) : BoundedFifo α := ⟨cap, [], Nat.zero_le cap⟩

def full (q : BoundedFifo α) : Bool := q.items.length = q.cap

def get (q : BoundedFifo α) : Option (α × BoundedFifo α) :=
  match hq : q.items with
  | [] => none
  | x :: xs => some (x, ⟨q.cap, xs, by
      have hle := q.le_cap
      rw [hq, List.length_cons] at hle
      omega⟩)

def put (q : BoundedFifo α) (x : α) : Option (BoundedFifo α) :=
  if hroom : q.items.length < q.cap then
    some ⟨q.cap, q.items ++ [x], by
      rw [List.length_append, List.length_singleton]
      omega⟩
  else none

def grow (q : BoundedFifo α) : BoundedFifo α :=
  ⟨q.cap + q.cap / 2, q.items, Nat.le_trans q.le_cap (Nat.le_add_right _ _)⟩

variable {q q' : BoundedFifo α} {x : α}

theorem get_eq_none_iff : q.get = none ↔ q.items = [] := by
  unfold get
  split <;> simp_all

theorem items_of_get (h : q.get = some (x, q')) : q.items = x :: q'.items ∧ q'.cap = q.cap := by
  unfold get at h
  split at h
  · cases h
  · cases h
    exact ⟨‹_›, rfl⟩

theorem put_eq_none_iff : q.put x = none ↔ q.full = true := by
  have hle := q.le_cap
  unfold put full
  split_ifs with hroom
  · simp only [decide_eq_true_eq, false_iff]
    omega
  · simp only [decide_eq_true_eq, true_iff]
    omega

theorem items_of_put (h : q.put x = some q') :
    q'.items = q.items ++ [x] ∧ q'.cap = q.cap ∧ q.items.length < q.cap := by
  unfold put at h
  split_ifs at h with hroom
  cases h
  exact ⟨rfl, rfl, hroom⟩

theorem exists_get_of_full (hcap : 0 < q.cap) (hfull : q.full = true) :
    ∃ x q', q.get = some (x, q') ∧ q'.items.length + 1 = q.cap := by
  have hlen : q.items.length = q.cap := of_decide_eq_true hfull
  cases hget : q.get with
  | none =>
    rw [get_eq_none_iff.mp hget, List.length_nil] at hlen
    omega
  | some p =>
    obtain ⟨hitems, -⟩ := items_of_get hget
    rw [hitems, List.length_cons] at hlen
    exact ⟨p.1, p.2, rfl, hlen⟩

end BoundedFifo
