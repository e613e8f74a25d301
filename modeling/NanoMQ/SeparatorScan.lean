import Mathlib.Data.List.TakeWhile

/-!
# Cutting a list at a separator

`scan` looks for the separator again and again, puts what stands before it behind the pieces found
so far, and counts them. It leaves the piece behind the last separator to its caller. What it does
is compared with `List.splitOn`.
-/

namespace SeparatorScan

variable {α β : Type*} [DecidableEq α]

def before (sep : α) (s : List α) : List α := s.takeWhile (· != sep)

def behind (sep : α) (s : List α) : List α := (s.dropWhile (· != sep)).tail

/-- The pieces cut off so far, their number, and what is left. -/
structure Cut (α β : Type*) where
  pieces : List β
  num : ℕ
  rest : List α
  deriving DecidableEq

def scan (sep : α) (mk : List α → β) : ℕ → Cut α β → Option (Cut α β)
  | 0, _ => none
  | fuel + 1, c =>
    match c.rest.idxOf? sep with
    | none => some c
    | some n =>
      scan sep mk fuel ⟨c.pieces ++ [mk (c.rest.take n)], c.num + 1, c.rest.drop (n + 1)⟩

section First

variable {sep : α} {s : List α} {n : ℕ}

theorem before_append (hmem : sep ∉ s) (t : List α) : before sep (s ++ sep :: t) = s := by
  have hs : ∀ a ∈ s, (a != sep) = true := by
    intro a ha
    exact bne_iff_ne.mpr fun h => hmem (h ▸ ha)
  rw [before, List.takeWhile_append_of_pos hs, List.takeWhile_cons_of_neg (by simp),
    List.append_nil]

theorem behind_append (hmem : sep ∉ s) (t : List α) : behind sep (s ++ sep :: t) = t := by
  have hs : ∀ a ∈ s, (a != sep) = true := by
    intro a ha
    exact bne_iff_ne.mpr fun h => hmem (h ▸ ha)
  rw [behind, List.dropWhile_append_of_pos hs, List.dropWhile_cons_of_neg (by simp)]
  rfl

theorem before_of_not_mem (hmem : sep ∉ s) : before sep s = s := by
  apply List.takeWhile_eq_self_iff.mpr
  intro a ha
  exact bne_iff_ne.mpr fun h => hmem (h ▸ ha)

theorem behind_of_not_mem (hmem : sep ∉ s) : behind sep s = [] := by
  rw [behind, List.dropWhile_eq_nil_iff.mpr]
  · rfl
  · intro a ha
    exact bne_iff_ne.mpr fun h => hmem (h ▸ ha)

theorem length_before_add_behind_lt (hne : behind sep s ≠ []) :
    (before sep s).length + (behind sep s).length < s.length := by
  have hdrop : s.dropWhile (· != sep) ≠ [] := by
    intro h
    exact hne (congrArg List.tail h)
  have hlen := congrArg List.length (List.takeWhile_append_dropWhile (p := (· != sep)) (l := s))
  have hpos := List.length_pos_iff.mpr hdrop
  rw [List.length_append] at hlen
  rw [before, behind, List.length_tail]
  omega

theorem idxOf?_split (h : s.idxOf? sep = some n) :
    sep ∉ s.take n ∧ s = s.take n ++ sep :: s.drop (n + 1) := by
  obtain ⟨hlt, hget, hfirst⟩ := List.idxOf?_eq_some_iff.mp h
  constructor
  · intro hmem
    obtain ⟨j, hj, hjs⟩ := List.getElem_of_mem hmem
    rw [List.length_take] at hj
    rw [List.getElem_take] at hjs
    exact hfirst j (by omega) hjs
  · rw [← hget, ← List.drop_eq_getElem_cons hlt, List.take_append_drop]

theorem before_of_idxOf? (h : s.idxOf? sep = some n) : before sep s = s.take n := by
  obtain ⟨hmem, hsplit⟩ := idxOf?_split h
  exact (congrArg (before sep) hsplit).trans (before_append hmem _)

theorem behind_of_idxOf? (h : s.idxOf? sep = some n) : behind sep s = s.drop (n + 1) := by
  obtain ⟨hmem, hsplit⟩ := idxOf?_split h
  exact (congrArg (behind sep) hsplit).trans (behind_append hmem _)

theorem splitOn_of_idxOf? (h : s.idxOf? sep = some n) :
    s.splitOn sep = s.take n :: (s.drop (n + 1)).splitOn sep := by
  obtain ⟨hmem, hsplit⟩ := idxOf?_split h
  exact (congrArg (List.splitOn sep) hsplit).trans
    (List.splitOn_append_cons_self_of_not_mem hmem _)

end First

theorem length_le_of_mem_splitOn {sep : α} {s piece : List α} (h : piece ∈ s.splitOn sep) :
    piece.length ≤ s.length := by
  induction s generalizing piece with
  | nil =>
    rw [List.splitOn_nil, List.mem_singleton] at h
    rw [h]
  | cons a s ih =>
    obtain ⟨head, tail, hs⟩ := List.exists_cons_of_ne_nil (List.splitOn_ne_nil sep s)
    have htail : ∀ p ∈ head :: tail, p.length ≤ s.length := fun p hp => ih (hs ▸ hp)
    rw [List.splitOn_cons_eq_if_modifyHead, hs] at h
    split_ifs at h with ha
    · rcases List.mem_cons.mp h with rfl | hmem
      · exact Nat.zero_le _
      · exact (htail piece hmem).trans (Nat.le_succ _)
    · rcases List.mem_cons.mp h with rfl | hmem
      · exact Nat.succ_le_succ (htail head List.mem_cons_self)
      · exact (htail piece (List.mem_cons_of_mem _ hmem)).trans (Nat.le_succ _)

theorem scan_splitOn (sep : α) (mk : List α → β) (fuel : ℕ) (c : Cut α β)
    (hfuel : c.rest.length < fuel) :
    ∃ init last, c.rest.splitOn sep = init ++ [last] ∧ (init = [] ↔ sep ∉ c.rest) ∧
      scan sep mk fuel c = some ⟨c.pieces ++ init.map mk, c.num + init.length, last⟩ := by
  induction fuel generalizing c with
  | zero => omega
  | succ fuel ih =>
    cases hidx : c.rest.idxOf? sep with
    | none =>
      have hmem : sep ∉ c.rest := List.idxOf?_eq_none_iff.mp hidx
      refine ⟨[], c.rest, List.splitOn_eq_singleton hmem, iff_of_true rfl hmem, ?_⟩
      rw [scan, hidx, List.map_nil, List.append_nil]
      rfl
    | some n =>
      have hmem : sep ∈ c.rest := by
        rw [(idxOf?_split hidx).2]
        exact List.mem_append_right _ List.mem_cons_self
      have hlt : n < c.rest.length := (List.idxOf?_eq_some_iff.mp hidx).1
      obtain ⟨init, last, hsplit, -, hscan⟩ :=
        ih ⟨c.pieces ++ [mk (c.rest.take n)], c.num + 1, c.rest.drop (n + 1)⟩
          (by rw [List.length_drop]; omega)
      refine ⟨c.rest.take n :: init, last, ?_,
        iff_of_false (List.cons_ne_nil _ _) (not_not.mpr hmem), ?_⟩
      · rw [splitOn_of_idxOf? hidx, hsplit, List.cons_append]
      · rw [scan, hidx]
        simp only [hscan, List.map_cons, List.append_assoc, List.singleton_append, List.length_cons]
        rw [Nat.add_right_comm, Nat.add_assoc]

end SeparatorScan
