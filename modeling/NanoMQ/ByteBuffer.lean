import Mathlib.Data.List.Basic
import Mathlib.Data.List.TakeWhile

/-!
# Byte buffers and C strings

A buffer is the list of its bytes. Reads at a position return zero past the end, so that a
caller who needs a bound has to state it. A `char *` is read up to its first zero byte. Machine
words are natural numbers reduced to their width, and the signed reading of a 32-bit word is the
balanced residue.
-/

namespace ByteBuffer

abbrev Bytes := List UInt8

/-- The bytes of an ASCII string literal. -/
def ascii (s : String) : Bytes := s.toList.map (fun c => UInt8.ofNat c.toNat)

def byteAt (b : Bytes) (i : ℕ) : UInt8 := b.getD i 0

def get16 (b : Bytes) (i : ℕ) : ℕ := (byteAt b i).toNat * 256 + (byteAt b (i + 1)).toNat

def put16 (n : ℕ) : Bytes := [UInt8.ofNat (n / 256), UInt8.ofNat n]

def get32 (b : Bytes) (i : ℕ) : ℕ := get16 b i * 65536 + get16 b (i + 2)

/-- A 32-bit word in four bytes; a larger number is cut to its word. -/
def put32 (n : ℕ) : Bytes := put16 (n / 65536) ++ put16 n

def slice (b : Bytes) (start len : ℕ) : Bytes := (b.drop start).take len

def u32 (i : ℤ) : ℕ := (i % 4294967296).toNat

/-- The value of a 64-bit length after its conversion to a signed 32-bit `int`. -/
def i32 (n : ℕ) : ℤ := Int.bmod n 4294967296

/-- The bytes of a buffer that a C string function sees. -/
def cstr (b : Bytes) : Bytes := b.takeWhile (· ≠ 0)

def strchr (b : Bytes) (c : UInt8) : Bool := (cstr b).contains c

@[simp] theorem length_put16 (n : ℕ) : (put16 n).length = 2 := rfl

theorem get16_lt (b : Bytes) (i : ℕ) : get16 b i < 65536 := by
  have h₀ := (byteAt b i).toNat_lt
  have h₁ := (byteAt b (i + 1)).toNat_lt
  unfold get16
  omega

theorem byteAt_append_right (pre b : Bytes) (i : ℕ) :
    byteAt (pre ++ b) (pre.length + i) = byteAt b i := by
  simp only [byteAt, List.getD_eq_getElem?_getD]
  rw [List.getElem?_append_right (Nat.le_add_right _ _), Nat.add_sub_cancel_left]

theorem get16_append_right (pre b : Bytes) (i : ℕ) :
    get16 (pre ++ b) (pre.length + i) = get16 b i := by
  simp only [get16, byteAt_append_right, Nat.add_assoc]

theorem get16_put16_append (n : ℕ) (b : Bytes) (hn : n < 65536) :
    get16 (put16 n ++ b) 0 = n := by
  simp only [get16, put16, byteAt, List.cons_append, List.nil_append, List.getD_cons_zero,
    List.getD_cons_succ, Nat.zero_add, UInt8.toNat_ofNat']
  omega

theorem put16_inj {n k : ℕ} (hn : n < 65536) (hk : k < 65536) (h : put16 n = put16 k) : n = k := by
  rw [← get16_put16_append n [] hn, h, get16_put16_append k [] hk]

theorem get16_append_put16 (pre b : Bytes) (n : ℕ) (hn : n < 65536) :
    get16 (pre ++ (put16 n ++ b)) pre.length = n := by
  have h := get16_append_right pre (put16 n ++ b) 0
  rw [Nat.add_zero] at h
  rw [h, get16_put16_append n b hn]

@[simp] theorem length_put32 (n : ℕ) : (put32 n).length = 4 := rfl

theorem get32_append_right (pre b : Bytes) (i : ℕ) :
    get32 (pre ++ b) (pre.length + i) = get32 b i := by
  simp only [get32, Nat.add_assoc, get16_append_right]

theorem get32_put32_append (n : ℕ) (b : Bytes) : get32 (put32 n ++ b) 0 = n % 4294967296 := by
  simp only [get32, get16, put32, put16, byteAt, List.cons_append, List.nil_append,
    List.getD_cons_zero, List.getD_cons_succ, Nat.zero_add, UInt8.toNat_ofNat']
  omega

theorem slice_two_eq_put16 (b : Bytes) (i : ℕ) (h : i + 2 ≤ b.length) :
    slice b i 2 = put16 (get16 b i) := by
  have h₀ : i < b.length := by omega
  have h₁ : i + 1 < b.length := by omega
  have hd : b.drop i = b[i] :: b[i + 1] :: b.drop (i + 2) := by
    rw [List.drop_eq_getElem_cons h₀, List.drop_eq_getElem_cons h₁]
  have ha : (b[i]).toNat < 256 := (b[i]).toNat_lt
  have hb : (b[i + 1]).toNat < 256 := (b[i + 1]).toNat_lt
  have hhi : ((b[i]).toNat * 256 + (b[i + 1]).toNat) / 256 = (b[i]).toNat := by omega
  have hlo : UInt8.ofNat ((b[i]).toNat * 256 + (b[i + 1]).toNat) = b[i + 1] := by
    apply UInt8.toNat_inj.mp
    rw [UInt8.toNat_ofNat']
    omega
  simp only [slice, hd, List.take_succ_cons, List.take_zero, put16, get16, byteAt,
    List.getD_eq_getElem?_getD, List.getElem?_eq_getElem h₀, List.getElem?_eq_getElem h₁,
    Option.getD_some, hhi, hlo, UInt8.ofNat_toNat]

theorem length_slice (b : Bytes) (i n : ℕ) (h : i + n ≤ b.length) : (slice b i n).length = n := by
  simp only [slice, List.length_take, List.length_drop]
  omega

theorem slice_append_drop (b : Bytes) (i n : ℕ) : slice b i n ++ b.drop (i + n) = b.drop i := by
  rw [slice, ← List.drop_drop, List.take_append_drop]

theorem slice_append_right (pre mid post : Bytes) :
    slice (pre ++ (mid ++ post)) pre.length mid.length = mid := by
  simp [slice]

theorem cstr_of_not_mem {b : Bytes} (h : (0 : UInt8) ∉ b) : cstr b = b := by
  apply List.takeWhile_eq_self_iff.mpr
  intro x hx
  have hne : x ≠ 0 := by rintro rfl; exact h hx
  simpa using hne

theorem not_mem_cstr (b : Bytes) : (0 : UInt8) ∉ cstr b := by
  intro hmem
  have hne := List.mem_takeWhile_imp hmem
  simp at hne

theorem cstr_cstr (b : Bytes) : cstr (cstr b) = cstr b := cstr_of_not_mem (not_mem_cstr b)

theorem strchr_of_not_mem {b : Bytes} (h : (0 : UInt8) ∉ b) (c : UInt8) :
    strchr b c = true ↔ c ∈ b := by
  rw [strchr, cstr_of_not_mem h, List.contains_iff_mem]

theorem idxOf?_append_self {a : Bytes} {c : UInt8} (h : c ∉ a) (b : Bytes) :
    (a ++ c :: b).idxOf? c = some a.length := by
  induction a with
  | nil => simp [List.idxOf?_cons]
  | cons x a ih =>
    have hx : x ≠ c := fun hx => h (hx ▸ List.mem_cons_self)
    have ha : c ∉ a := fun hc => h (List.mem_cons_of_mem x hc)
    simp [List.idxOf?_cons, hx, ih ha]

theorem length_le_of_idxOf? {a b : Bytes} {c : UInt8} {k : ℕ} (h : c ∉ a)
    (hk : (a ++ b).idxOf? c = some k) : a.length ≤ k := by
  induction a generalizing k with
  | nil => exact Nat.zero_le k
  | cons x a ih =>
    have hx : x ≠ c := fun hx => h (hx ▸ List.mem_cons_self)
    have ha : c ∉ a := fun hc => h (List.mem_cons_of_mem x hc)
    simp only [List.cons_append, List.idxOf?_cons, beq_iff_eq, hx, if_false,
      Option.map_eq_some_iff] at hk
    obtain ⟨j, hj, rfl⟩ := hk
    exact Nat.succ_le_succ (ih ha hj)

theorem u32_natCast {n : ℕ} (h : n < 4294967296) : u32 n = n := by
  unfold u32
  omega

theorem i32_of_lt {n : ℕ} (h : n < 2147483648) : i32 n = n := by
  unfold i32
  rw [Int.bmod_def]
  omega

theorem i32_le (n : ℕ) : i32 n ≤ n := by
  unfold i32
  rw [Int.bmod_def]
  omega

end ByteBuffer
