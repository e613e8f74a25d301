import NanoMQ.Base62

/-!
# Base 64 without padding

`base64_no_padding_encode` shifts the bytes of a payload into `val` and takes six bits out whenever
`pos`, the number of bits it holds, is above five; what is left in the end is filled up with zeros.
`set_char` writes the two characters behind the digits as letters. A payload is a number in base 256
and its groups of six bits are the digits of a multiple of it in base 64. `val` has 32 bits, and
`out` is what has been written so far, of which `j` is the length.
-/

namespace NanoMQ

open ByteBuffer Positional

def base64Alphabet : Bytes :=
  ascii "ABCDEFGHIJKLMNOPQRSTUVWXYZabcdefghijklmnopqrstuvwxyz0123456789+/"

def setChar (out : Bytes) (c : UInt8) : Bytes :=
  if c = 105 then out ++ [105]
  else if c = 43 then out ++ [65]
  else if c = 47 then out ++ [66]
  else out ++ [c]

structure Base64State where
  pos : ℕ
  val : UInt32
  out : Bytes
  deriving DecidableEq

/-- The inner loop, which runs while `pos` is above five. -/
def takeSix : ℕ → UInt32 → Bytes → Base64State
  | pos + 6, val, out =>
    takeSix pos (val &&& (1 <<< UInt32.ofNat pos - 1))
      (setChar out (byteAt base64Alphabet (val >>> UInt32.ofNat pos).toNat))
  | pos, val, out => ⟨pos, val, out⟩

def base64Step (s : Base64State) (byte : UInt8) : Base64State :=
  takeSix (s.pos + 8) (s.val <<< 8 ||| (byte.toUInt32 &&& 255)) s.out

structure Base64Output where
  out : Bytes
  j : UInt32
  deriving DecidableEq

def base64Finish (s : Base64State) : Bytes :=
  if 0 < s.pos then
    setChar s.out (byteAt base64Alphabet (s.val <<< UInt32.ofNat (6 - s.pos)).toNat)
  else s.out

def base64NoPaddingEncode (input : Bytes) : Base64Output :=
  let out := base64Finish (input.foldl base64Step ⟨0, 0, []⟩)
  ⟨out, UInt32.ofNat out.length⟩

/-- The group whose letter `set_char` writes in place of the character. -/
def merged (group : ℕ) : ℕ := if group = 62 then 0 else if group = 63 then 1 else group

def base64Char (group : ℕ) : UInt8 := byteAt base64Alphabet (merged group)

/-- The `i`-th group of six bits of a payload, from its first byte on. -/
def sixBits (x : Bytes) (i : ℕ) : ℕ :=
  value 256 (digitsOf x) / 2 ^ (8 * x.length - 6 * (i + 1)) % 64

theorem setChar_alphabet {group : ℕ} (h : group < 64) (out : Bytes) :
    setChar out (byteAt base64Alphabet group) = out ++ [base64Char group] := by
  have hall : ∀ g < 64, setChar [] (byteAt base64Alphabet g) = [base64Char g] := by
    decide +kernel
  have hout : ∀ c, setChar out c = out ++ setChar [] c := by
    intro c
    unfold setChar
    split_ifs <;> rfl
  rw [hout, hall group h]

theorem base64Char_eq_iff {a b : ℕ} (ha : a < 64) (hb : b < 64) :
    base64Char a = base64Char b ↔ merged a = merged b := by
  have hread : ∀ g < 64, base64Alphabet.idxOf (base64Char g) = merged g := by
    decide +kernel
  constructor
  · intro h
    rw [← hread a ha, h, hread b hb]
  · intro h
    rw [base64Char, h, base64Char]

theorem merged_eq_iff {a : ℕ} (ha : a ∉ [0, 1, 62, 63]) (b : ℕ) : merged b = merged a ↔ b = a := by
  simp only [List.mem_cons, List.not_mem_nil, or_false, not_or] at ha
  unfold merged
  split_ifs <;> omega

/-- Groups that are filled up with zeros are not merged with others. -/
theorem merged_of_dvd {a : ℕ} (ha : 4 ∣ a) : merged a = a := by
  unfold merged
  split_ifs <;> omega

section Loop

/-- The groups written so far and the bits in `val` are the bits read, which spell `v`. -/
structure Grouped (s : Base64State) (groups : List ℕ) (v bits : ℕ) : Prop where
  out : s.out = groups.map base64Char
  group_lt : ∀ g ∈ groups, g < 64
  val_lt : s.val.toNat < 2 ^ s.pos
  bits : 6 * groups.length + s.pos = bits
  value : value 64 groups * 2 ^ s.pos + s.val.toNat = v

theorem toNat_shiftRight_ofNat (val : UInt32) {p : ℕ} (hp : p < 32) :
    (val >>> UInt32.ofNat p).toNat = val.toNat / 2 ^ p := by
  rw [UInt32.toNat_shiftRight, UInt32.toNat_ofNat', Nat.mod_eq_of_lt (by omega : p < 2 ^ 32),
    Nat.mod_eq_of_lt hp, Nat.shiftRight_eq_div_pow]

theorem toNat_shiftLeft_ofNat {val : UInt32} {p : ℕ} (hp : p < 32)
    (hval : val.toNat * 2 ^ p < 2 ^ 32) :
    (val <<< UInt32.ofNat p).toNat = val.toNat * 2 ^ p := by
  rw [UInt32.toNat_shiftLeft, UInt32.toNat_ofNat', Nat.mod_eq_of_lt (by omega : p < 2 ^ 32),
    Nat.mod_eq_of_lt hp, Nat.shiftLeft_eq, Nat.mod_eq_of_lt hval]

theorem toNat_and_mask (val : UInt32) {p : ℕ} (hp : p < 32) :
    (val &&& (1 <<< UInt32.ofNat p - 1)).toNat = val.toNat % 2 ^ p := by
  have hpow : 2 ^ p < 2 ^ 32 := Nat.pow_lt_pow_right (by decide) hp
  have hone : ((1 : UInt32) <<< UInt32.ofNat p).toNat = 2 ^ p := by
    rw [toNat_shiftLeft_ofNat hp (by simpa using hpow)]
    exact Nat.one_mul _
  have hle : (1 : UInt32) ≤ 1 <<< UInt32.ofNat p := by
    rw [UInt32.le_iff_toNat_le, hone]
    exact Nat.one_le_two_pow
  rw [UInt32.toNat_and, UInt32.toNat_sub_of_le _ _ hle, hone]
  exact Nat.and_two_pow_sub_one_eq_mod _ _

theorem grouped_concat {pos v bits : ℕ} {val : UInt32} {out : Bytes} {groups : List ℕ}
    (h : Grouped ⟨pos + 6, val, out⟩ groups v bits) (hpos : pos < 32) :
    Grouped ⟨pos, val &&& (1 <<< UInt32.ofNat pos - 1),
        setChar out (byteAt base64Alphabet (val >>> UInt32.ofNat pos).toNat)⟩
      (groups ++ [val.toNat / 2 ^ pos]) v bits := by
  have hsplit : (2 : ℕ) ^ (pos + 6) = 2 ^ pos * 64 := Nat.pow_add 2 pos 6
  have hlt : val.toNat / 2 ^ pos < 64 := by
    apply Nat.div_lt_of_lt_mul
    rw [← hsplit]
    exact h.val_lt
  refine ⟨?_, ?_, ?_, ?_, ?_⟩
  · rw [toNat_shiftRight_ofNat val hpos, setChar_alphabet hlt, List.map_append]
    exact congrArg (· ++ _) h.out
  · intro g hg
    rcases List.mem_append.mp hg with hg | hg
    · exact h.group_lt g hg
    · rwa [List.mem_singleton.mp hg]
  · rw [toNat_and_mask val hpos]
    exact Nat.mod_lt _ (Nat.two_pow_pos pos)
  · rw [← h.bits, List.length_append, List.length_singleton]
    change 6 * (groups.length + 1) + pos = 6 * groups.length + (pos + 6)
    omega
  · rw [toNat_and_mask val hpos, value_concat, ← h.value, hsplit, Nat.add_mul, Nat.add_assoc,
      Nat.mul_comm (val.toNat / 2 ^ pos), Nat.div_add_mod, Nat.mul_assoc, Nat.mul_comm 64]

theorem takeSix_grouped (pos : ℕ) (val : UInt32) (out : Bytes) {groups : List ℕ} {v bits : ℕ}
    (h : Grouped ⟨pos, val, out⟩ groups v bits) (hpos : pos < 32) :
    (takeSix pos val out).pos < 6 ∧
      ∃ groups', Grouped (takeSix pos val out) groups' v bits := by
  induction pos, val, out using takeSix.induct generalizing groups with
  | case1 val out pos ih =>
    rw [takeSix]
    exact ih (grouped_concat h (by omega)) (by omega)
  | case2 pos val out hsmall =>
    have hlt : pos < 6 := by
      by_contra hle
      exact hsmall (pos - 6) (by omega)
    rw [takeSix]
    · exact ⟨hlt, groups, h⟩
    · exact hsmall

theorem grouped_shift {s : Base64State} {groups : List ℕ} {v bits : ℕ}
    (h : Grouped s groups v bits) (hpos : s.pos < 6) (byte : UInt8) :
    Grouped ⟨s.pos + 8, s.val <<< 8 ||| (byte.toUInt32 &&& 255), s.out⟩ groups
      (v * 256 + byte.toNat) (bits + 8) := by
  have hpow : (2 : ℕ) ^ s.pos ≤ 2 ^ 5 := Nat.pow_le_pow_right (by decide) (Nat.le_of_lt_succ hpos)
  have hval : s.val.toNat < 62 := h.val_lt.trans_le (hpow.trans (by decide))
  have hmask : byte.toUInt32 &&& 255 = byte.toUInt32 := by
    rw [← UInt32.toNat_inj, UInt32.toNat_and, UInt8.toNat_toUInt32]
    exact (Nat.and_two_pow_sub_one_eq_mod byte.toNat 8).trans (Nat.mod_eq_of_lt byte.toNat_lt)
  have hnext : (s.val <<< 8 ||| (byte.toUInt32 &&& 255)).toNat =
      s.val.toNat * 256 + byte.toNat := by
    rw [hmask, dividend_toNat hval byte]
  have hsplit : (2 : ℕ) ^ (s.pos + 8) = 2 ^ s.pos * 256 := Nat.pow_add 2 s.pos 8
  refine ⟨h.out, h.group_lt, ?_, ?_, ?_⟩
  · have hlt := h.val_lt
    have hbyte := byte.toNat_lt
    rw [hnext, hsplit]
    omega
  · rw [← h.bits, Nat.add_assoc]
  · rw [hnext, hsplit, ← h.value, Nat.add_mul, Nat.mul_assoc, Nat.add_assoc]

theorem base64Step_grouped {s : Base64State} {groups : List ℕ} {v bits : ℕ}
    (h : Grouped s groups v bits) (hpos : s.pos < 6) (byte : UInt8) :
    (base64Step s byte).pos < 6 ∧
      ∃ groups', Grouped (base64Step s byte) groups' (v * 256 + byte.toNat) (bits + 8) :=
  takeSix_grouped _ _ _ (grouped_shift h hpos byte) (by omega)

/-- After the outer loop the groups are those of the payload, but for the bits left in `val`. -/
theorem foldl_base64Step_grouped (x : Bytes) :
    (x.foldl base64Step ⟨0, 0, []⟩).pos < 6 ∧
      ∃ groups, Grouped (x.foldl base64Step ⟨0, 0, []⟩) groups (value 256 (digitsOf x))
        (8 * x.length) := by
  induction x using List.reverseRecOn with
  | nil =>
    exact ⟨by decide, [], rfl, fun g hg => absurd hg List.not_mem_nil, by decide, rfl, rfl⟩
  | append_singleton x byte ih =>
    obtain ⟨hpos, groups, h⟩ := ih
    rw [List.foldl_append]
    have hstep := base64Step_grouped h hpos byte
    have hvalue : value 256 (digitsOf (x ++ [byte])) =
        value 256 (digitsOf x) * 256 + byte.toNat := by
      rw [digitsOf, List.map_append]
      exact value_concat _ _ _
    rw [hvalue, List.length_append, Nat.mul_add]
    exact hstep

end Loop

end NanoMQ
