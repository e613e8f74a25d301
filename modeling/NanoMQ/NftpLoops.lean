import NanoMQ.NftpVec

/-!
# The loops of the vector

What the loops of the vector do to contents that stand in the array in one piece, `b` between `a`
and `c`, and that they leave the array where the contents go around its end.
-/

namespace NanoMQ

open RingBuffer

section Loops

variable {β : Type*}

theorem getElem?_length_append (a : List β) (x : β) (b : List β) :
    (a ++ x :: b)[a.length]? = some x := by
  rw [List.getElem?_append_right le_rfl, Nat.sub_self, List.getElem?_cons_zero]

theorem exists_split {l : List β} {n : ℕ} (h : n ≤ l.length) :
    ∃ front back, l = front ++ back ∧ front.length = n ∧ back.length = l.length - n :=
  ⟨l.take n, l.drop n, (List.take_append_drop n l).symm,
    by rw [List.length_take, Nat.min_eq_left h], List.length_drop⟩

theorem setCell_length_append (a : List β) (x y : β) (b : List β) :
    setCell (a ++ x :: b) a.length y = some (a ++ y :: b) := by
  rw [setCell_of_lt (by simp), List.set_append_right _ _ le_rfl, Nat.sub_self, List.set_cons_zero]

/-- The cells behind `x` move down over it; the cell of the last one keeps its value. -/
theorem shiftDown_append (a : List β) (x : β) (b c : List β) :
    ∃ z, shiftDown b.length (a.length + 1) (a ++ x :: (b ++ c)) = some (a ++ (b ++ z :: c)) := by
  induction b generalizing a x with
  | nil => exact ⟨x, rfl⟩
  | cons y b ih =>
    obtain ⟨z, hz⟩ := ih (a ++ [y]) y
    refine ⟨z, ?_⟩
    have hread := getElem?_length_append (a ++ [x]) y (b ++ c)
    rw [List.append_assoc, List.length_append, List.length_singleton] at hread
    rw [List.length_append, List.length_singleton, List.append_assoc, List.append_assoc] at hz
    rw [List.length_cons, shiftDown]
    simp only [List.cons_append, List.nil_append, Option.bind_eq_bind] at hread hz ⊢
    rw [hread, Option.bind_some, Nat.add_sub_cancel, setCell_length_append, Option.bind_some, hz]

theorem shiftDown_none {vec : List β} {count i : ℕ} (hi : i ≤ vec.length)
    (h : vec.length < i + count) : shiftDown count i vec = none := by
  induction count generalizing vec i with
  | zero => omega
  | succ count ih =>
    rw [shiftDown, Option.bind_eq_bind]
    by_cases hlt : i < vec.length
    · rw [List.getElem?_eq_getElem hlt, Option.bind_some, setCell_of_lt (by omega),
        Option.bind_eq_bind, Option.bind_some]
      exact ih (by rw [List.length_set]; omega) (by rw [List.length_set]; omega)
    · rw [List.getElem?_eq_none (by omega)]
      rfl

theorem shiftUp_append (a b : List β) (z : β) (c : List β) :
    ∃ w, shiftUp b.length (a.length + b.length) (a ++ (b ++ z :: c)) =
      some (a ++ w :: (b ++ c)) := by
  induction b using List.reverseRecOn generalizing z c with
  | nil => exact ⟨z, rfl⟩
  | append_singleton b y ih =>
    obtain ⟨w, hw⟩ := ih y (y :: c)
    refine ⟨w, ?_⟩
    have hread := getElem?_length_append (a ++ b) y (z :: c)
    have hwrite := setCell_length_append (a ++ (b ++ [y])) z y c
    simp only [List.append_assoc, List.length_append, List.length_singleton, List.cons_append,
      List.nil_append] at hread hwrite ⊢
    rw [shiftUp, Option.bind_eq_bind, ← Nat.add_assoc, Nat.add_sub_cancel, hread, Option.bind_some,
      Nat.add_assoc, hwrite, Option.bind_eq_bind, Option.bind_some, hw]

theorem copyCells_append (p q r a c d : List β) (h : c.length = q.length) :
    copyCells (p ++ (q ++ r)) q.length p.length a.length (a ++ (c ++ d)) =
      some (a ++ (q ++ d)) := by
  induction q generalizing p a c with
  | nil =>
    obtain rfl := List.eq_nil_of_length_eq_zero h
    rfl
  | cons x q ih =>
    obtain ⟨y, c, rfl⟩ := List.exists_cons_of_length_eq_add_one h
    have hrest := ih (p ++ [x]) (a ++ [x]) c (Nat.succ.inj h)
    simp only [List.append_assoc, List.length_append, List.length_singleton, List.cons_append,
      List.nil_append] at hrest ⊢
    rw [List.length_cons, copyCells, getElem?_length_append, Option.bind_eq_bind, Option.bind_some,
      setCell_length_append, Option.bind_eq_bind, Option.bind_some, hrest]

theorem copyCells_none {src : List β} {count i : ℕ} (hi : i ≤ src.length)
    (h : src.length < i + count) (j : ℕ) (dst : List β) : copyCells src count i j dst = none := by
  induction count generalizing i j dst with
  | zero => omega
  | succ count ih =>
    rw [copyCells, Option.bind_eq_bind]
    by_cases hlt : i < src.length
    · rw [List.getElem?_eq_getElem hlt, Option.bind_some, Option.bind_eq_bind]
      cases setCell dst j src[i] with
      | none => rfl
      | some dst' => exact ih (by omega) (by omega) (j + 1) dst'
    · rw [List.getElem?_eq_none (by omega)]
      rfl

/-- The search sees `count` cells or as many as there are; it leaves the array if there are fewer
and the entry is in none of them. -/
theorem findCell_eq [DecidableEq β] {vec : List (Option β)} (entry : Option β) {count i : ℕ}
    (hi : i ≤ vec.length) :
    findCell vec entry count i =
      (((vec.drop i).take count).idxOf? entry).elim
        (if i + count ≤ vec.length then some none else none) (fun k => some (some (i + k))) := by
  induction count generalizing i with
  | zero => simp [findCell, hi]
  | succ count ih =>
    rw [findCell]
    by_cases hlt : i < vec.length
    · have hrest := ih (show i + 1 ≤ vec.length from hlt)
      rw [Nat.add_right_comm, Nat.add_assoc] at hrest
      rw [List.getElem?_eq_getElem hlt, Option.bind_some, hrest, List.drop_eq_getElem_cons hlt,
        List.take_succ_cons, List.idxOf?_cons]
      by_cases hx : vec[i] = entry
      · simp [hx]
      · have hne : (vec[i] == entry) = false := beq_false_of_ne hx
        rw [if_neg hx, hne]
        cases ((vec.drop (i + 1)).take count).idxOf? entry with
        | none => rfl
        | some k =>
          show some (some (i + 1 + k)) = some (some (i + (k + 1)))
          rw [Nat.add_right_comm, Nat.add_assoc]
    · rw [List.getElem?_eq_none (by omega), List.drop_of_length_le (by omega), List.take_nil,
        if_neg (by omega)]
      rfl

end Loops

end NanoMQ
