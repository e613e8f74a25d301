import NanoMQ.Base62

/-!
# The buffer of a base-62 payload

`webhook_msg_publish` allocates the buffer of the encoded payload by `BASE62_ENCODE_OUT_SIZE` and
`base62_encode` writes to it without a bound. A hundred bytes carry less than 135 digits of base 62,
so the size is enough as long as the product in the macro is computed exactly. Once it wraps, the
buffer is shorter than the payload itself, which no base-62 text is.
-/

namespace NanoMQ

open ByteBuffer Positional

/-- `BASE62_ENCODE_OUT_SIZE`, applied to the length of a payload. -/
def base62EncodeOutSize (s : UInt32) : UInt32 := s * 135 / 100 + 4

theorem length_le_length_base62Text (x : Bytes) : x.length ≤ (base62Text x).length := by
  have h := @length_le_length_respell 256 62 (by decide) (by decide) (digitsOf x)
  rw [base62Text, List.length_map]
  rwa [digitsOf, List.length_map] at h

theorem length_base62Text_ratio (x : Bytes) :
    100 * (base62Text x).length ≤ 135 * x.length + 100 := by
  have h := length_respell_ratio (b := 256) (c := 62) (p := 135) (q := 100) (by decide) (by decide)
    (by decide) (by decide +kernel) (digitsOf_lt x)
  rw [base62Text, List.length_map]
  rwa [digitsOf, List.length_map] at h

theorem base62EncodeOutSize_toNat (n : ℕ) :
    (base62EncodeOutSize (UInt32.ofNat n)).toNat = 135 * n % 2 ^ 32 / 100 + 4 := by
  have hlt : n % 2 ^ 32 * 135 % 2 ^ 32 / 100 + 4 < 2 ^ 32 := by omega
  have heq : n % 2 ^ 32 * 135 % 2 ^ 32 = 135 * n % 2 ^ 32 := by omega
  show (n % 2 ^ 32 * 135 % 2 ^ 32 / 100 + 4) % 2 ^ 32 = _
  rw [Nat.mod_eq_of_lt hlt, heq]

/-- A product that wraps loses more than the factor gives. -/
theorem wrapped_size_le {n : ℕ} (h : 2 ^ 32 ≤ 135 * n) : 135 * n % 2 ^ 32 / 100 + 4 ≤ n := by
  have hlt : 135 * n % 2 ^ 32 < 2 ^ 32 := Nat.mod_lt _ (by decide)
  have hle : 135 * n % 2 ^ 32 + 2 ^ 32 ≤ 135 * n := by
    have hdiv := Nat.div_add_mod (135 * n) (2 ^ 32)
    have hone := Nat.div_le_div_right (c := 2 ^ 32) h
    omega
  omega

/-- What is written for a payload, with the terminating zero, fits the buffer exactly if the product
in the macro does not wrap. -/
theorem base62Encode_fits_iff (payload : Bytes) (hpos : 1 ≤ payload.length) :
    (∃ o, base62Encode payload = some o ∧
        o.out.length ≤ (base62EncodeOutSize (UInt32.ofNat payload.length)).toNat) ↔
      135 * payload.length < 2 ^ 32 := by
  have hne : payload ≠ [] := List.ne_nil_of_length_pos hpos
  have hlower := length_le_length_base62Text payload
  have hupper := length_base62Text_ratio payload
  have hlen : ∀ o, base62Encode payload = some o →
      o.out.length = (base62Text payload).length + 1 := by
    intro o ho
    rw [base62Encode_eq hne] at ho
    rw [← Option.some.inj ho, List.length_append, List.length_singleton]
  rw [base62EncodeOutSize_toNat]
  constructor
  · rintro ⟨o, ho, hle⟩
    by_contra hwrap
    have hsmall := wrapped_size_le (Nat.le_of_not_lt hwrap)
    rw [hlen o ho] at hle
    omega
  · intro hexact
    refine ⟨_, base62Encode_eq hne, ?_⟩
    rw [hlen _ (base62Encode_eq hne)]
    omega

/-- The payload of the repository's test. -/
theorem base62Encode_fits_message :
    ∃ o, base62Encode (ascii "messagei+/") = some o ∧
      o.out.length ≤ (base62EncodeOutSize (UInt32.ofNat (ascii "messagei+/").length)).toNat :=
  (base62Encode_fits_iff (ascii "messagei+/") (by decide)).mpr (by decide)

theorem base62Encode_length_gt (payload : Bytes) (hpos : 1 ≤ payload.length) :
    ∃ o, base62Encode payload = some o ∧ payload.length < o.out.length := by
  refine ⟨_, base62Encode_eq (List.ne_nil_of_length_pos hpos), ?_⟩
  rw [List.length_append, List.length_singleton]
  exact Nat.lt_succ_of_le (length_le_length_base62Text payload)

/-- For 31814573 bytes, the shortest payload whose product wraps, a buffer of four bytes is
allocated, and more bytes than the payload has are written to it. -/
theorem base62Encode_overruns_buffer :
    base62EncodeOutSize (UInt32.ofNat 31814573) = 4 ∧
      ∃ payload : Bytes, payload.length = 31814573 ∧
        ∃ o, base62Encode payload = some o ∧ 31814573 < o.out.length := by
  have hlen : (List.replicate 31814573 (0 : UInt8)).length = 31814573 := List.length_replicate
  obtain ⟨o, ho, hlt⟩ := base62Encode_length_gt (List.replicate 31814573 0)
    (by rw [hlen]; decide)
  rw [hlen] at hlt
  exact ⟨rfl, _, hlen, o, ho, hlt⟩

end NanoMQ
