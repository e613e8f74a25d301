import Mathlib.Algebra.Group.Nat.Defs
import NanoMQ.Placeholder

/-!
# The buffer of `replace_placeholder`

`replace_placeholder` goes over the string twice: the first loop adds up the size of the result in a
`size_t`, where the difference of the two lengths wraps around when the replacement is the shorter
one, and the second copies into the buffer that was allocated from it. A buffer is a function that
is `none` where nothing has been written, so that the bytes a copy writes are the places where the
final buffer is not.
-/

namespace NanoMQ

open ByteBuffer Substitution

def resultLenLoop (placeholder replacement : Bytes) : ℕ → Bytes → UInt64 → UInt64
  | 0, _, resultLen => resultLen
  | fuel + 1, p, resultLen =>
      match strstr placeholder p with
      | none => resultLen
      | some i => resultLenLoop placeholder replacement fuel (p.drop (i + placeholder.length))
          (resultLen + (UInt64.ofNat replacement.length - UInt64.ofNat placeholder.length))

def resultLen (origin placeholder replacement : Bytes) : UInt64 :=
  resultLenLoop placeholder replacement origin.length origin (UInt64.ofNat origin.length)

def allocatedSize (origin placeholder replacement : Bytes) : UInt64 :=
  resultLen origin placeholder replacement + 1

abbrev Written := ℕ → Option UInt8

def Written.store (mem : Written) (pos : ℕ) (b : Bytes) : Written := fun i =>
  if pos ≤ i ∧ i < pos + b.length then b[i - pos]? else mem i

def Written.strcpy (mem : Written) (pos : ℕ) (s : Bytes) : Written := mem.store pos (s ++ [0])

/-- The second loop of `replace_placeholder`, at `p` with `currentPos` and the buffer so far, and
the `strcpy` behind it. -/
def copyLoop (placeholder replacement : Bytes) : ℕ → Bytes → ℕ → Written → Written
  | 0, p, currentPos, mem => mem.strcpy currentPos p
  | fuel + 1, p, currentPos, mem =>
      match strstr placeholder p with
      | none => mem.strcpy currentPos p
      | some i =>
          copyLoop placeholder replacement fuel (p.drop (i + placeholder.length))
            (currentPos + i + replacement.length)
            ((mem.store currentPos (p.take i)).strcpy (currentPos + i) replacement)

def replaceBuffer (origin placeholder replacement : Bytes) : Written :=
  copyLoop placeholder replacement origin.length origin 0 (fun _ => none)

theorem resultLenLoop_add {placeholder : Bytes} (hne : placeholder ≠ []) (replacement : Bytes)
    (fuel : ℕ) (p : Bytes) (n : UInt64) (hfuel : p.length ≤ fuel) :
    resultLenLoop placeholder replacement fuel p n + UInt64.ofNat p.length =
      n + UInt64.ofNat (substitute placeholder replacement p).length := by
  induction fuel generalizing p n with
  | zero =>
      obtain rfl : p = [] := List.eq_nil_of_length_eq_zero (Nat.le_zero.mp hfuel)
      rfl
  | succ fuel ih =>
      cases hs : strstr placeholder p with
      | none => simp only [resultLenLoop, hs, substitute_of_strstr_none hs]
      | some i =>
          have hrest := ih (p.drop (i + placeholder.length))
            (n + (UInt64.ofNat replacement.length - UInt64.ofNat placeholder.length))
            (length_drop_match_le hne i hfuel)
          have hp : p.length =
              i + (placeholder.length + (p.drop (i + placeholder.length)).length) := by
            have h := strstr_some_length hne hs
            rw [List.length_drop]
            omega
          have hlen : (substitute placeholder replacement p).length = i + (replacement.length +
              (substitute placeholder replacement (p.drop (i + placeholder.length))).length) := by
            have h := strstr_some_length hne hs
            rw [substitute_of_strstr_some hne hs, List.length_append, List.length_append,
              List.length_take, Nat.min_eq_left (by omega)]
          simp only [resultLenLoop, hs]
          rw [hp, hlen]
          simp only [UInt64.ofNat_add]
          grind

theorem resultLen_eq {placeholder : Bytes} (hne : placeholder ≠ []) (origin replacement : Bytes) :
    resultLen origin placeholder replacement =
      UInt64.ofNat (substitute placeholder replacement origin).length := by
  have h := resultLenLoop_add hne replacement origin.length origin
    (UInt64.ofNat origin.length) le_rfl
  rw [UInt64.add_comm] at h
  exact (UInt64.add_right_inj _).mp h

/-- The buffer holds `front`, and nothing behind the place that follows it, where a terminating zero
may stand. -/
structure Written.Holds (mem : Written) (front : Bytes) : Prop where
  inside : ∀ i < front.length, mem i = front[i]?
  outside : ∀ i > front.length, mem i = none

namespace Written

variable {mem : Written} {front b : Bytes}

theorem holds_nil : Holds (fun _ => none) [] :=
  ⟨fun i hi => absurd hi (Nat.not_lt_zero i), fun _ _ => rfl⟩

theorem Holds.store (h : mem.Holds front) (b : Bytes) :
    (mem.store front.length b).Holds (front ++ b) := by
  constructor
  · intro i hi
    rw [List.length_append] at hi
    by_cases hlow : i < front.length
    · rw [Written.store, if_neg (by omega), List.getElem?_append_left hlow, h.inside i hlow]
    · rw [Written.store, if_pos (by omega), List.getElem?_append_right (by omega)]
  · intro i hi
    rw [List.length_append] at hi
    rw [Written.store, if_neg (by omega), h.outside i (by omega)]

theorem Holds.strcpy (h : mem.Holds front) (s : Bytes) :
    (mem.strcpy front.length s).Holds (front ++ s) := by
  constructor
  · intro i hi
    have hs := (h.store (s ++ [0])).inside i (by simp at hi ⊢; omega)
    rw [Written.strcpy, hs, ← List.append_assoc, List.getElem?_append_left hi]
  · intro i hi
    rw [List.length_append] at hi
    rw [Written.strcpy, Written.store, if_neg (by simp; omega), h.outside i (by omega)]

theorem Holds.strcpy_eq (h : mem.Holds front) (s : Bytes) (i : ℕ) :
    mem.strcpy front.length s i = (front ++ (s ++ [0]))[i]? := by
  have hs := h.store (s ++ [0])
  by_cases hi : i < (front ++ (s ++ [0])).length
  · exact hs.inside i hi
  · have hlen := @List.length_append _ front (s ++ [0])
    have hzero : (s ++ [(0 : UInt8)]).length = s.length + 1 := List.length_append
    rw [List.getElem?_eq_none (by omega), Written.strcpy, Written.store, if_neg (by omega)]
    exact h.outside i (by omega)

end Written

theorem copyLoop_eq {placeholder : Bytes} (hne : placeholder ≠ []) (replacement : Bytes)
    (fuel : ℕ) (p front : Bytes) (mem : Written) (hfuel : p.length ≤ fuel)
    (hmem : mem.Holds front) (i : ℕ) :
    copyLoop placeholder replacement fuel p front.length mem i =
      (front ++ (substitute placeholder replacement p ++ [0]))[i]? := by
  induction fuel generalizing p front mem with
  | zero =>
      obtain rfl : p = [] := List.eq_nil_of_length_eq_zero (Nat.le_zero.mp hfuel)
      exact hmem.strcpy_eq [] i
  | succ fuel ih =>
      cases hs : strstr placeholder p with
      | none =>
          simp only [copyLoop, hs, substitute_of_strstr_none hs]
          exact hmem.strcpy_eq p i
      | some j =>
          have hj := strstr_some_length hne hs
          have hle := length_drop_match_le hne j hfuel
          have hseg : (front ++ p.take j).length = front.length + j := by
            rw [List.length_append, List.length_take, Nat.min_eq_left (by omega)]
          have hcopied := (hmem.store (p.take j)).strcpy replacement
          rw [hseg] at hcopied
          have hnext := ih (p.drop (j + placeholder.length)) _ _ hle hcopied
          rw [List.length_append, hseg] at hnext
          simp only [copyLoop, hs]
          rw [hnext, substitute_of_strstr_some hne hs]
          simp only [List.append_assoc]

theorem replaceBuffer_eq {placeholder : Bytes} (hne : placeholder ≠ [])
    (origin replacement : Bytes) (i : ℕ) :
    replaceBuffer origin placeholder replacement i =
      (substitute placeholder replacement origin ++ [0])[i]? :=
  copyLoop_eq hne replacement origin.length origin [] _ le_rfl Written.holds_nil i

theorem placeholder_ne_nil {placeholder : Bytes}
    (h : placeholder = placeholderClientid ∨ placeholder = placeholderUsername) :
    placeholder ≠ [] := by
  rcases h with rfl | rfl
  · exact placeholderClientid_ne_nil
  · exact placeholderUsername_ne_nil

/-- The text, the computed size and the bytes written agree. Lengths are `size_t` values, and a
result that fits into memory is as long as `resultLen` says. -/
theorem replacePlaceholder_fills_buffer (origin replacement placeholder : Bytes)
    (h : placeholder = placeholderClientid ∨ placeholder = placeholderUsername) :
    let result := replacePlaceholder origin placeholder replacement
    result = substitute placeholder replacement origin ∧
      (∀ i, replaceBuffer origin placeholder replacement i = (result ++ [0])[i]?) ∧
      resultLen origin placeholder replacement = UInt64.ofNat result.length ∧
      allocatedSize origin placeholder replacement = UInt64.ofNat (result.length + 1) ∧
      (result.length + 1 < 2 ^ 64 →
        (resultLen origin placeholder replacement).toNat = result.length ∧
        ∀ i, (replaceBuffer origin placeholder replacement i).isSome ↔
          i < (allocatedSize origin placeholder replacement).toNat) := by
  have hne := placeholder_ne_nil h
  intro result
  have hresult : result = substitute placeholder replacement origin :=
    replacePlaceholder_eq_substitute hne origin replacement
  have hbuffer (i : ℕ) :
      replaceBuffer origin placeholder replacement i = (result ++ [0])[i]? := by
    rw [hresult]
    exact replaceBuffer_eq hne origin replacement i
  have hlen : resultLen origin placeholder replacement = UInt64.ofNat result.length := by
    rw [hresult]
    exact resultLen_eq hne origin replacement
  have hsize : allocatedSize origin placeholder replacement = UInt64.ofNat (result.length + 1) := by
    rw [allocatedSize, hlen, UInt64.ofNat_add]
    rfl
  refine ⟨hresult, hbuffer, hlen, hsize, ?_⟩
  intro hfits
  constructor
  · rw [hlen, UInt64.toNat_ofNat', Nat.mod_eq_of_lt (by omega)]
  · intro i
    rw [hbuffer, hsize, UInt64.toNat_ofNat', Nat.mod_eq_of_lt hfits]
    simp

/-- A placeholder replaced by a shorter string, where the difference of the lengths wraps around. -/
theorem replacePlaceholder_fills_buffer_shorter :
    replacePlaceholder (ascii "d/$\x7bclientid\x7d/e") placeholderClientid (ascii "c1") =
        ascii "d/c1/e" ∧
      (resultLen (ascii "d/$\x7bclientid\x7d/e") placeholderClientid (ascii "c1")).toNat = 6 := by
  have h := replacePlaceholder_fills_buffer (ascii "d/$\x7bclientid\x7d/e") (ascii "c1")
    placeholderClientid (Or.inl rfl)
  have hresult : replacePlaceholder (ascii "d/$\x7bclientid\x7d/e") placeholderClientid
      (ascii "c1") = ascii "d/c1/e" := h.1.trans rfl
  have hfits := h.2.2.2.2
  rw [hresult] at hfits
  exact ⟨hresult, (hfits (by decide)).1⟩

end NanoMQ
