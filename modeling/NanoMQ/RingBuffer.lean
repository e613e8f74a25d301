import Mathlib.Data.List.Rotate
import Mathlib.Data.Nat.ModEq

/-!
# Ring buffers

A ring is a list of cells, a start and a length; what it holds are the cells from the start on,
around the end of the list. An entry is added behind the last one or in front of the first, and
taken from the front, by moving the start and writing one cell. Where the contents do not go around
the end they are a slice of the cells.
-/

namespace RingBuffer

variable {α : Type*}

def contents (cells : List α) (low len : ℕ) : List α := (cells.rotate low).take len

theorem length_contents {cells : List α} {len : ℕ} (low : ℕ) (h : len ≤ cells.length) :
    (contents cells low len).length = len := by
  rw [contents, List.length_take, List.length_rotate, Nat.min_eq_left h]

theorem getElem?_contents {cells : List α} {len i : ℕ} (low : ℕ) (h : len ≤ cells.length)
    (hi : i < len) : (contents cells low len)[i]? = cells[(low + i) % cells.length]? := by
  rw [contents, List.getElem?_take_of_lt hi, List.getElem?_rotate (by omega), Nat.add_comm]

theorem contents_congr {cells cells' : List α} {low low' len : ℕ} (h : len ≤ cells.length)
    (h' : len ≤ cells'.length)
    (hcells : ∀ i < len, cells[(low + i) % cells.length]? = cells'[(low' + i) % cells'.length]?) :
    contents cells low len = contents cells' low' len := by
  apply List.ext_getElem?
  intro i
  by_cases hi : i < len
  · rw [getElem?_contents low h hi, getElem?_contents low' h' hi, hcells i hi]
  · rw [List.getElem?_eq_none (by rw [length_contents low h]; omega),
      List.getElem?_eq_none (by rw [length_contents low' h']; omega)]

/-- Cells at different offsets below the length of the ring are different. -/
theorem index_ne {cap low i j : ℕ} (hi : i < cap) (hj : j < cap) (hij : i ≠ j) :
    (low + i) % cap ≠ (low + j) % cap := by
  intro heq
  have hmod : Nat.ModEq cap i j := Nat.ModEq.add_left_cancel' low heq
  exact hij (Nat.ModEq.eq_of_lt_of_lt hmod hi hj)

theorem contents_set_of_le {cells : List α} {len j : ℕ} (low : ℕ) (x : α) (hj : len ≤ j)
    (hcap : j < cells.length) :
    contents (cells.set ((low + j) % cells.length) x) low len = contents cells low len := by
  have hlen : len ≤ cells.length := by omega
  apply contents_congr (by rwa [List.length_set]) hlen
  intro i hi
  rw [List.length_set, List.getElem?_set_ne]
  exact index_ne hcap (by omega) (by omega)

theorem contents_succ {cells : List α} {len : ℕ} {x : α} (low : ℕ) (h : len < cells.length)
    (hx : cells[(low + len) % cells.length]? = some x) :
    contents cells low (len + 1) = contents cells low len ++ [x] := by
  rw [contents, List.take_add_one, List.getElem?_rotate h, Nat.add_comm len low, hx]
  rfl

theorem contents_pushBack {cells : List α} {len : ℕ} (low : ℕ) (x : α) (h : len < cells.length) :
    contents (cells.set ((low + len) % cells.length) x) low (len + 1) =
      contents cells low len ++ [x] := by
  have hpos : (low + len) % cells.length < cells.length := Nat.mod_lt _ (by omega)
  rw [contents_succ low (by rwa [List.length_set]), contents_set_of_le low x le_rfl h]
  rw [List.length_set, List.getElem?_set_self hpos]

theorem contents_cons {cells : List α} {low len : ℕ} {x : α} (h : len < cells.length)
    (hx : cells[low % cells.length]? = some x) :
    contents cells low (len + 1) = x :: contents cells (low + 1) len := by
  apply List.ext_getElem?
  intro i
  cases i with
  | zero =>
    rw [getElem?_contents low h (Nat.succ_pos len), Nat.add_zero, hx]
    rfl
  | succ i =>
    rw [List.getElem?_cons_succ]
    by_cases hi : i < len
    · rw [getElem?_contents low h (by omega), getElem?_contents (low + 1) h.le hi]
      congr 2
      omega
    · rw [List.getElem?_eq_none (by rw [length_contents low h]; omega),
        List.getElem?_eq_none (by rw [length_contents _ h.le]; omega)]

theorem contents_mod (cells : List α) (low len : ℕ) :
    contents cells (low % cells.length) len = contents cells low len := by
  rw [contents, List.rotate_mod, contents]

/-- A write to the cell before the first entry is not seen, unless the ring is full. -/
theorem contents_set_before {cells : List α} {low len : ℕ} (y : α) (h : len < cells.length)
    (hlow : low < cells.length) :
    contents (cells.set low y) (low + 1) len = contents cells (low + 1) len := by
  have hlast : (low + 1 + (cells.length - 1)) % cells.length = low := by
    rw [show low + 1 + (cells.length - 1) = low + cells.length by omega, Nat.add_mod_right,
      Nat.mod_eq_of_lt hlow]
  have hset : contents (cells.set ((low + 1 + (cells.length - 1)) % cells.length) y) (low + 1) len =
      contents cells (low + 1) len := contents_set_of_le _ y (by omega) (by omega)
  rwa [hlast] at hset

/-- The first entry is taken, and its cell overwritten. -/
theorem contents_popFront {cells : List α} {low len : ℕ} {x : α} (y : α) (h : len < cells.length)
    (hlow : low < cells.length) (hx : cells[low]? = some x) :
    contents cells low (len + 1) =
      x :: contents (cells.set low y) ((low + 1) % cells.length) len := by
  have hmod := contents_mod (cells.set low y) (low + 1) len
  rw [List.length_set, contents_set_before y h hlow] at hmod
  rw [contents_cons h (by rwa [Nat.mod_eq_of_lt hlow]), hmod]

/-- An entry is put in front of the first one, where the start is not the first cell. -/
theorem contents_pushFront {cells : List α} {len : ℕ} (low : ℕ) (x : α) (h : len < cells.length)
    (hlow : low < cells.length) :
    contents (cells.set low x) low (len + 1) = x :: contents cells (low + 1) len := by
  rw [contents_cons (by rwa [List.length_set])
    (by rw [List.length_set, Nat.mod_eq_of_lt hlow, List.getElem?_set_self hlow]),
    contents_set_before x h hlow]

theorem contents_of_le {cells : List α} {low len : ℕ} (h : low + len ≤ cells.length) :
    contents cells low len = (cells.drop low).take len := by
  rw [contents, List.rotate_eq_drop_append_take (by omega), List.take_append_of_le_length]
  rw [List.length_drop]
  omega

theorem contents_append {a b c : List α} : contents (a ++ (b ++ c)) a.length b.length = b := by
  rw [contents_of_le (by simp), List.drop_left, List.take_left]

theorem exists_append_of_le {cells : List α} {low len : ℕ} (h : low + len ≤ cells.length) :
    ∃ a b c, cells = a ++ (b ++ c) ∧ a.length = low ∧ b.length = len := by
  refine ⟨cells.take low, (cells.drop low).take len, (cells.drop low).drop len, ?_, ?_, ?_⟩
  · rw [List.take_append_drop, List.take_append_drop]
  · rw [List.length_take]
    omega
  · rw [List.length_take, List.length_drop]
    omega

end RingBuffer
