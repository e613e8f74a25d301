import NanoMQ.Base64

/-!
# The loops of base 64

`base64_no_padding_encode` indexes its table without a mask and writes without a bound. It stays
inside both because `val` never holds more than the `pos` bits that have not been taken yet. `pos`
is even all the time, so that it is at most four in front of a byte and at most twelve behind it.
-/

namespace NanoMQ

open ByteBuffer Positional

/-- `BASE64_NO_PADDING_ENCODE_OUT_SIZE`, applied to the length of a payload. -/
def base64NoPaddingEncodeOutSize (s : UInt32) : UInt32 := s * 8 / 6 + 2

/-- The states in which the condition of the inner loop is tested. -/
def takeSixHeads : ℕ → UInt32 → Bytes → List Base64State
  | pos + 6, val, out =>
    ⟨pos + 6, val, out⟩ ::
      takeSixHeads pos (val &&& (1 <<< UInt32.ofNat pos - 1))
        (setChar out (byteAt base64Alphabet (val >>> UInt32.ofNat pos).toNat))
  | pos, val, out => [⟨pos, val, out⟩]

def base64Heads : Base64State → Bytes → List Base64State
  | _, [] => []
  | s, byte :: rest =>
    takeSixHeads (s.pos + 8) (s.val <<< 8 ||| (byte.toUInt32 &&& 255)) s.out ++
      base64Heads (base64Step s byte) rest

def base64Loop (input : Bytes) : Base64State := input.foldl base64Step ⟨0, 0, []⟩

/-- The bits in `val` are those that have not been taken, and the next index is one of the table. -/
structure Base64State.Bounded (s : Base64State) : Prop where
  pos_le : s.pos ≤ 12
  val_lt : s.val.toNat < 2 ^ s.pos
  index_lt : 5 < s.pos → (s.val >>> UInt32.ofNat (s.pos - 6)).toNat < base64Alphabet.length

/-- What the loops keep and what they write. The states end with the one behind the loops. -/
structure Base64Bounded (input : Bytes) : Prop where
  run : input ≠ [] → (base64Heads ⟨0, 0, []⟩ input).getLast? = some (base64Loop input)
  head : ∀ s ∈ base64Heads ⟨0, 0, []⟩ input, s.Bounded
  behind : ∀ x, x <+: input → (base64Loop x).pos < 6
  rest_lt : 0 < (base64Loop input).pos →
    (base64Loop input).val.toNat < 2 ^ (base64Loop input).pos
  rest_index_lt : 0 < (base64Loop input).pos →
    ((base64Loop input).val <<< UInt32.ofNat (6 - (base64Loop input).pos)).toNat <
      base64Alphabet.length
  written : (base64NoPaddingEncode input).out.length = (8 * input.length + 5) / 6
  returned : (base64NoPaddingEncode input).j.toNat = (8 * input.length + 5) / 6
  fits : (8 * input.length + 5) / 6 + 1 ≤
    (base64NoPaddingEncodeOutSize (UInt32.ofNat input.length)).toNat

theorem length_base64Alphabet : base64Alphabet.length = 64 := rfl

theorem length_setChar (out : Bytes) (c : UInt8) : (setChar out c).length = out.length + 1 := by
  unfold setChar
  split_ifs <;> exact List.length_append

theorem getLast?_takeSixHeads (pos : ℕ) (val : UInt32) (out : Bytes) :
    (takeSixHeads pos val out).getLast? = some (takeSix pos val out) := by
  induction pos, val, out using takeSix.induct with
  | case1 val out pos ih =>
    rw [takeSixHeads, takeSix, List.getLast?_cons, ih]
    rfl
  | case2 pos val out hsmall =>
    rw [takeSixHeads, takeSix]
    · rfl
    · exact hsmall
    · exact hsmall

theorem getLast?_base64Heads {input : Bytes} (hne : input ≠ []) (s : Base64State) :
    (base64Heads s input).getLast? = some (input.foldl base64Step s) := by
  induction input generalizing s with
  | nil => exact absurd rfl hne
  | cons byte rest ih =>
    rw [base64Heads, List.getLast?_append, getLast?_takeSixHeads, List.foldl_cons]
    cases rest with
    | nil => rfl
    | cons next rest =>
      rw [ih (List.cons_ne_nil next rest)]
      rfl

theorem Grouped.bounded {s : Base64State} {groups : List ℕ} {v bits : ℕ}
    (h : Grouped s groups v bits) (hpos : s.pos ≤ 12) : s.Bounded where
  pos_le := hpos
  val_lt := h.val_lt
  index_lt := by
    intro htake
    rw [toNat_shiftRight_ofNat _ (by omega), length_base64Alphabet]
    apply Nat.div_lt_of_lt_mul
    rw [show 64 = 2 ^ 6 from rfl, ← Nat.pow_add, show s.pos - 6 + 6 = s.pos by omega]
    exact h.val_lt

theorem takeSixHeads_bounded (pos : ℕ) (val : UInt32) (out : Bytes) {groups : List ℕ} {v bits : ℕ}
    (h : Grouped ⟨pos, val, out⟩ groups v bits) (hpos : pos ≤ 12) :
    ∀ s ∈ takeSixHeads pos val out, s.Bounded := by
  induction pos, val, out using takeSix.induct generalizing groups with
  | case1 val out pos ih =>
    rw [takeSixHeads, List.forall_mem_cons]
    exact ⟨h.bounded hpos, ih (grouped_concat h (by omega)) (by omega)⟩
  | case2 pos val out hsmall =>
    rw [takeSixHeads]
    · rw [List.forall_mem_singleton]
      exact h.bounded hpos
    · exact hsmall

/-- The bits that are left are what eight bits a byte leave of groups of six. -/
theorem Grouped.pos_le {s : Base64State} {groups : List ℕ} {v n : ℕ}
    (h : Grouped s groups v (8 * n)) (hpos : s.pos < 6) : s.pos ≤ 4 := by
  have hbits := h.bits
  omega

theorem base64Heads_bounded (input : Bytes) {s : Base64State} {groups : List ℕ} {v n : ℕ}
    (h : Grouped s groups v (8 * n)) (hpos : s.pos < 6) :
    ∀ t ∈ base64Heads s input, t.Bounded := by
  induction input generalizing s groups v n with
  | nil => exact fun t ht => absurd ht List.not_mem_nil
  | cons byte rest ih =>
    have hle := h.pos_le hpos
    obtain ⟨hnext, groups', h'⟩ := base64Step_grouped h hpos byte
    rw [base64Heads, List.forall_mem_append]
    refine ⟨takeSixHeads_bounded _ _ _ (grouped_shift h hpos byte) (by omega), ?_⟩
    exact ih (n := n + 1) h' hnext

/-- The last group is one of the table. -/
theorem Grouped.rest_index_lt {s : Base64State} {groups : List ℕ} {v bits : ℕ}
    (h : Grouped s groups v bits) (hpos : s.pos < 6) :
    (s.val <<< UInt32.ofNat (6 - s.pos)).toNat < base64Alphabet.length := by
  have hpow : (2 : ℕ) ^ s.pos * 2 ^ (6 - s.pos) = 64 := by
    rw [← Nat.pow_add, show s.pos + (6 - s.pos) = 6 by omega]
  have hlt : s.val.toNat * 2 ^ (6 - s.pos) < 64 := by
    rw [← hpow]
    exact Nat.mul_lt_mul_of_pos_right h.val_lt (Nat.two_pow_pos _)
  rw [length_base64Alphabet]
  by_cases hzero : s.pos = 0
  · have hval : s.val = 0 := by
      have := h.val_lt
      rw [hzero, Nat.pow_zero, Nat.lt_one_iff] at this
      exact UInt32.toNat_inj.mp this
    rw [hval, hzero]
    decide
  · rwa [toNat_shiftLeft_ofNat (by omega) (by omega)]

theorem length_base64NoPaddingEncode (input : Bytes) :
    (base64NoPaddingEncode input).out.length = (8 * input.length + 5) / 6 := by
  obtain ⟨hpos, groups, h⟩ := foldl_base64Step_grouped input
  have hbits := h.bits
  change (base64Finish (input.foldl base64Step ⟨0, 0, []⟩)).length = _
  rw [base64Finish]
  split_ifs with hleft
  · rw [length_setChar, h.out, List.length_map]
    omega
  · rw [h.out, List.length_map]
    omega

theorem base64NoPaddingEncodeOutSize_toNat {n : ℕ} (h : n < 2 ^ 28) :
    (base64NoPaddingEncodeOutSize (UInt32.ofNat n)).toNat = 8 * n / 6 + 2 := by
  have hexact : n % 2 ^ 32 * 8 % 2 ^ 32 = 8 * n := by omega
  change (n % 2 ^ 32 * 8 % 2 ^ 32 / 6 + 2) % 2 ^ 32 = _
  rw [hexact]
  omega

/-- For every payload of an MQTT message the loops keep their bounds and what they write, with a
terminating zero, fits the buffer. -/
theorem base64_bounded (input : Bytes) (hlen : input.length < 2 ^ 28) : Base64Bounded input := by
  obtain ⟨hpos, groups, h⟩ := foldl_base64Step_grouped input
  have hwritten := length_base64NoPaddingEncode input
  refine ⟨fun hne => getLast?_base64Heads hne _, ?_, ?_, fun _ => h.val_lt,
    fun _ => h.rest_index_lt hpos, hwritten, ?_, ?_⟩
  · exact base64Heads_bounded (n := 0) input
      ⟨rfl, fun g hg => absurd hg List.not_mem_nil, by decide, rfl, rfl⟩ (by decide)
  · intro x _
    exact (foldl_base64Step_grouped x).1
  · change (UInt32.ofNat (base64NoPaddingEncode input).out.length).toNat = _
    rw [hwritten, UInt32.toNat_ofNat']
    omega
  · rw [base64NoPaddingEncodeOutSize_toNat hlen]
    omega

theorem base64_bounded_message : Base64Bounded (ascii "messagei+/") :=
  base64_bounded (ascii "messagei+/") (by decide)

end NanoMQ
