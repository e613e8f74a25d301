import NanoMQ.ByteBuffer

/-!
# Reversing a buffer in place

A loop that exchanges the bytes at `i` and as far from the end, for every `i` in the first half,
leaves the buffer reversed.
-/

namespace ByteBuffer

/-- Exchange of the bytes at `i` and as far from the end. -/
def swapEnds (out : Bytes) (i : ℕ) : Bytes :=
  (out.set i (byteAt out (out.length - 1 - i))).set (out.length - 1 - i) (byteAt out i)

def reverseLoop (out : Bytes) : ℕ → Bytes
  | 0 => out
  | k + 1 => swapEnds (reverseLoop out k) k

theorem length_swapEnds (out : Bytes) (i : ℕ) : (swapEnds out i).length = out.length := by
  simp [swapEnds]

theorem length_reverseLoop (out : Bytes) (k : ℕ) : (reverseLoop out k).length = out.length := by
  induction k with
  | zero => rfl
  | succ k ih => rw [reverseLoop, length_swapEnds, ih]

theorem byteAt_set {b : Bytes} {i : ℕ} (hi : i < b.length) (c : UInt8) (j : ℕ) :
    byteAt (b.set i c) j = if j = i then c else byteAt b j := by
  simp only [byteAt, List.getD_eq_getElem?_getD, List.getElem?_set, hi, if_true]
  by_cases hj : j = i
  · rw [if_pos hj, if_pos hj.symm, Option.getD_some]
  · rw [if_neg hj, if_neg (Ne.symm hj)]

/-- After `k` turns the first `k` and the last `k` bytes have changed places. -/
theorem byteAt_reverseLoop (out : Bytes) (k : ℕ) (hk : 2 * k ≤ out.length) {j : ℕ}
    (hj : j < out.length) :
    byteAt (reverseLoop out k) j =
      if j < k ∨ out.length ≤ j + k then byteAt out (out.length - 1 - j) else byteAt out j := by
  induction k generalizing j with
  | zero => rw [reverseLoop, if_neg (by omega)]
  | succ k ih =>
      have hlen := length_reverseLoop out k
      have hset : byteAt (swapEnds (reverseLoop out k) k) j =
          if j = out.length - 1 - k then byteAt (reverseLoop out k) k
          else if j = k then byteAt (reverseLoop out k) (out.length - 1 - k)
          else byteAt (reverseLoop out k) j := by
        rw [swapEnds, byteAt_set (by rw [List.length_set]; omega), byteAt_set (by omega), hlen]
      have hlow := @ih (by omega) k (by omega)
      have hhigh := @ih (by omega) (out.length - 1 - k) (by omega)
      rw [if_neg (by omega)] at hlow hhigh
      rw [reverseLoop, hset, hlow, hhigh, ih (by omega) hj]
      by_cases hlast : j = out.length - 1 - k
      · rw [if_pos hlast, if_pos (by omega), show out.length - 1 - j = k by omega]
      · by_cases hfirst : j = k
        · rw [if_neg hlast, if_pos hfirst, if_pos (by omega), hfirst]
        · rw [if_neg hlast, if_neg hfirst]
          have hiff : (j < k + 1 ∨ out.length ≤ j + (k + 1)) ↔ (j < k ∨ out.length ≤ j + k) := by
            omega
          simp only [hiff]

theorem ext_byteAt {a b : Bytes} (hlen : a.length = b.length)
    (h : ∀ j < a.length, byteAt a j = byteAt b j) : a = b := by
  apply List.ext_getElem hlen
  intro j ha hb
  have hj := h j ha
  simpa [byteAt, List.getD_eq_getElem?_getD, List.getElem?_eq_getElem ha,
    List.getElem?_eq_getElem hb] using hj

theorem byteAt_reverse (out : Bytes) {j : ℕ} (hj : j < out.length) :
    byteAt out.reverse j = byteAt out (out.length - 1 - j) := by
  simp only [byteAt, List.getD_eq_getElem?_getD]
  rw [List.getElem?_reverse hj]

theorem reverseLoop_eq (out : Bytes) : reverseLoop out (out.length / 2) = out.reverse := by
  apply ext_byteAt
  · rw [length_reverseLoop, List.length_reverse]
  · intro j hj
    rw [length_reverseLoop] at hj
    rw [byteAt_reverseLoop out (out.length / 2) (by omega) hj, byteAt_reverse out hj]
    by_cases hmid : j < out.length / 2 ∨ out.length ≤ j + out.length / 2
    · rw [if_pos hmid]
    · rw [if_neg hmid, show out.length - 1 - j = j by omega]

end ByteBuffer
