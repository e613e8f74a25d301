import NanoMQ.ByteBuffer
import Mathlib.Algebra.Order.Group.Int

/-!
# Functions on C strings

`strncmp`, the integers that `strtol` reads, and the last occurrence of a byte. A buffer is followed
by a zero byte, so that reading past its end stops there.
-/

namespace ByteBuffer

def strlen (b : Bytes) : ℕ := (cstr b).length

def strncmp : Bytes → Bytes → ℕ → ℤ
  | _, _, 0 => 0
  | a, b, n + 1 =>
    let x := a.headD 0
    let y := b.headD 0
    if x ≠ y then x.toNat - y.toNat
    else if x = 0 then 0
    else strncmp a.tail b.tail n

theorem cstr_cons {c : UInt8} (hc : c ≠ 0) (b : Bytes) : cstr (c :: b) = c :: cstr b := by
  simp [cstr, hc]

theorem cstr_of_head {b : Bytes} (h : b.headD 0 = 0) : cstr b = [] := by
  cases b with
  | nil => rfl
  | cons c b =>
    obtain rfl : c = 0 := h
    simp [cstr]

theorem cstr_of_head_ne {b : Bytes} (h : b.headD 0 ≠ 0) : cstr b = b.headD 0 :: cstr b.tail := by
  cases b with
  | nil => exact absurd rfl h
  | cons c b => exact cstr_cons h b

theorem length_cstr_le (b : Bytes) : (cstr b).length ≤ b.length :=
  (List.takeWhile_sublist _).length_le

theorem length_cstr_lt {s : Bytes} (h : (0 : UInt8) ∈ s) : (cstr s).length < s.length := by
  refine lt_of_le_of_ne (length_cstr_le s) (fun heq => not_mem_cstr s ?_)
  have hself : cstr s = s := (List.takeWhile_sublist _).eq_of_length heq
  rwa [hself]

/-- Two strings compare equal when they agree up to the given length. -/
theorem strncmp_eq_zero_iff (a b : Bytes) (n : ℕ) :
    strncmp a b n = 0 ↔ (cstr a).take n = (cstr b).take n := by
  induction n generalizing a b with
  | zero => simp [strncmp]
  | succ n ih =>
    unfold strncmp
    dsimp only
    split_ifs with hne hzero
    · -- the first bytes differ, so at most one of the two strings ends here
      have hval : (a.headD 0).toNat ≠ (b.headD 0).toNat := fun h => hne (UInt8.toNat_inj.mp h)
      refine iff_of_false (by omega) (fun heq => hne ?_)
      by_cases ha : a.headD 0 = 0
      · by_cases hb : b.headD 0 = 0
        · rw [ha, hb]
        · rw [cstr_of_head ha, cstr_of_head_ne hb, List.take_nil, List.take_succ_cons] at heq
          cases heq
      · by_cases hb : b.headD 0 = 0
        · rw [cstr_of_head hb, cstr_of_head_ne ha, List.take_nil, List.take_succ_cons] at heq
          cases heq
        · rw [cstr_of_head_ne ha, cstr_of_head_ne hb, List.take_succ_cons,
            List.take_succ_cons] at heq
          exact (List.cons.inj heq).1
    · have hb : b.headD 0 = 0 := (not_not.mp hne).symm.trans hzero
      exact iff_of_true rfl (by rw [cstr_of_head hzero, cstr_of_head hb])
    · have hb : b.headD 0 ≠ 0 := fun h => hzero ((not_not.mp hne).trans h)
      rw [ih, cstr_of_head_ne hzero, cstr_of_head_ne hb, List.take_succ_cons,
        List.take_succ_cons, not_not.mp hne, List.cons.injEq, and_iff_right rfl]

/-- Over the length of the first buffer the comparison does not see where the second string goes
on, and stops early at a zero byte in the first. -/
theorem strncmp_length_iff (a b : Bytes) :
    strncmp a b a.length = 0 ↔ a <+: cstr b ∨ (0 : UInt8) ∈ a ∧ cstr a = cstr b := by
  rw [strncmp_eq_zero_iff, List.take_of_length_le (length_cstr_le a)]
  by_cases hmem : (0 : UInt8) ∈ a
  · have hlt := length_cstr_lt hmem
    have hnot : ¬ a <+: cstr b := fun hpre => not_mem_cstr b (hpre.subset hmem)
    rw [or_iff_right hnot, and_iff_right hmem]
    constructor
    · intro heq
      have hlen := congrArg List.length heq
      rw [List.length_take] at hlen
      rw [heq, List.take_of_length_le (by omega)]
    · intro heq
      rw [← heq, List.take_of_length_le hlt.le]
  · rw [cstr_of_not_mem hmem, or_iff_left (fun h => hmem h.1), List.prefix_iff_eq_take]

def isSpace (c : UInt8) : Bool := c = 32 || (9 ≤ c && c ≤ 13)

def isDigit (c : UInt8) : Bool := 48 ≤ c && c ≤ 57

def digitsValue (ds : Bytes) : ℕ := ds.foldl (fun n d => 10 * n + (d.toNat - 48)) 0

def splitSign : Bytes → Bool × Bytes
  | [] => (false, [])
  | c :: s => if c = 45 then (true, s) else if c = 43 then (false, s) else (false, c :: s)

/-- `strtol` to the base ten, with the rest behind the number, or `none` without a digit. -/
def strtol (b : Bytes) : Option (ℤ × Bytes) :=
  let (neg, s) := splitSign ((cstr b).dropWhile isSpace)
  let ds := s.takeWhile isDigit
  if ds = [] then none
  else some (if neg then -digitsValue ds else digitsValue ds, s.dropWhile isDigit)

def wrap32 (n : ℤ) : ℤ := Int.bmod n 4294967296

def atoi (b : Bytes) : ℤ := wrap32 ((strtol b).elim 0 Prod.fst)

def integerOf (b : Bytes) : Option ℤ :=
  (strtol b).bind (fun r => if r.2 = [] then some r.1 else none)

def IsInt32 (n : ℤ) : Prop := -2147483648 ≤ n ∧ n < 2147483648

instance (n : ℤ) : Decidable (IsInt32 n) := inferInstanceAs (Decidable (_ ∧ _))

theorem wrap32_of_isInt32 {n : ℤ} (h : IsInt32 n) : wrap32 n = n := by
  obtain ⟨hlo, hhi⟩ := h
  unfold wrap32
  rw [Int.bmod_def]
  omega

theorem atoi_of_integerOf {b : Bytes} {k : ℤ} (h : integerOf b = some k) (hk : IsInt32 k) :
    atoi b = k := by
  obtain ⟨⟨v, rest⟩, hr, hif⟩ := Option.bind_eq_some_iff.mp h
  dsimp only at hif
  split_ifs at hif
  obtain rfl : v = k := Option.some.inj hif
  rw [atoi, hr]
  exact wrap32_of_isInt32 hk

theorem ofInt_natCast (n : ℕ) : UInt8.ofInt (n : ℤ) = UInt8.ofNat n := by
  rw [← UInt8.toNat_inj, UInt8.ofInt, UInt8.toNat_ofNat', UInt8.toNat_ofNat']
  omega

/-- What `%d` stores for a number: a `long`, with its conversion to `int`. -/
def scannedInt (n : ℤ) : ℤ := wrap32 (max (-2 ^ 63) (min (2 ^ 63 - 1) n))

/-- `sscanf(b, "%d%c", &n, &c)`: what it returns, and `n`, which is 0 before the call. -/
def sscanfIntChar (b : Bytes) : ℤ × ℤ :=
  match strtol b with
  | none => (if (cstr b).dropWhile isSpace = [] then -1 else 0, 0)
  | some (n, rest) => (if rest = [] then 1 else 2, scannedInt n)

/-- One conversion means a number with nothing behind it. -/
theorem sscanfIntChar_eq_one_iff {b : Bytes} {v : ℤ} :
    sscanfIntChar b = (1, v) ↔ (integerOf b).map scannedInt = some v := by
  unfold sscanfIntChar integerOf
  cases strtol b with
  | none =>
    refine iff_of_false (fun h => ?_) (fun h => Option.some_ne_none v h.symm)
    have hrc := congrArg Prod.fst h
    dsimp only at hrc
    split_ifs at hrc
    exact absurd hrc (by decide)
  | some r =>
    obtain ⟨n, rest⟩ := r
    by_cases hrest : rest = []
    · simp [hrest]
    · simp [hrest]

/-- The string with the last `c` overwritten by `d`, where `strrchr` finds it. -/
def setLast (c d : UInt8) : Bytes → Option Bytes
  | [] => none
  | x :: s =>
    match setLast c d s with
    | some s' => some (x :: s')
    | none => if x = c then some (d :: s) else none

theorem setLast_of_not_mem {c d : UInt8} {s : Bytes} (h : c ∉ s) : setLast c d s = none := by
  induction s with
  | nil => rfl
  | cons x s ih =>
    have hx : x ≠ c := fun hx => h (hx ▸ List.mem_cons_self)
    have hs : c ∉ s := fun hs => h (List.mem_cons_of_mem x hs)
    rw [setLast, ih hs]
    exact if_neg hx

theorem setLast_append {c d : UInt8} (a : Bytes) {s : Bytes} (h : c ∉ s) :
    setLast c d (a ++ c :: s) = some (a ++ d :: s) := by
  induction a with
  | nil =>
    rw [List.nil_append, setLast, setLast_of_not_mem h]
    exact if_pos rfl
  | cons x a ih =>
    rw [List.cons_append, setLast, ih]
    rfl

/-- What `snprintf` and `vsnprintf` return for a text, whatever the size of the buffer: its length,
or an error for a text that is longer than an `int` can say. -/
structure Printf where
  result : Bytes → Int32
  exact : ∀ text, text.length < 2147483648 → (result text).toInt = text.length
  error : ∀ text, 2147483648 ≤ text.length → (result text).toInt < 0

def printed (size : ℕ) (text : Bytes) : Bytes := text.take (size - 1)

def Printf.posix : Printf where
  result text := if text.length < 2147483648 then Int32.ofNat text.length else -1
  exact text h := by
    rw [if_pos h]
    exact Int32.toInt_ofNat_of_lt h
  error text h := by
    rw [if_neg (Nat.not_lt_of_le h)]
    decide

end ByteBuffer
