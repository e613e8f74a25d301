import NanoMQ.InPlaceReverse
import NanoMQ.Positional

/-!
# Base 62

`base62_encode` divides the payload of a webhook event, taken as one big-endian number, in place by
62 until nothing is left, writes a character for every remainder, then one for every leading zero
byte, and reverses the string. `tmp` is the part of the working copy from `start_idx` on: what
stands before it has become zero and is not read again. The loop is an instance of long division in
positional notation, from base 256 to base 62, and the string it leaves is the input respelled.
-/

namespace NanoMQ

open ByteBuffer Positional

def base62Alphabet : Bytes :=
  ascii "0123456789ABCDEFGHIJKLMNOPQRSTUVWXYZabcdefghijklmnopqrstuvwxyz"

/-- One pass over `tmp`: the quotients, before the cast to a byte, and the remainder. -/
def divideTmp : UInt32 → Bytes → List UInt32 × UInt32
  | remainder, [] => ([], remainder)
  | remainder, byte :: tmp =>
      let dividend := remainder <<< 8 ||| byte.toUInt32
      (dividend / 62 :: (divideTmp (dividend % 62) tmp).1, (divideTmp (dividend % 62) tmp).2)

def nextTmp (tmp : Bytes) : Bytes :=
  ((divideTmp 0 tmp).1.map UInt32.toUInt8).dropWhile (· = 0)

/-- The repeated division; `none` if it has not ended after `fuel` passes. -/
def divideLoop : ℕ → Bytes → Bytes → Option Bytes
  | 0, tmp, out => if tmp = [] then some out else none
  | fuel + 1, tmp, out =>
      if tmp = [] then some out
      else divideLoop fuel (nextTmp tmp)
        (out ++ [byteAt base62Alphabet (divideTmp 0 tmp).2.toNat])

structure Base62Output where
  out : Bytes
  outIdx : UInt32
  deriving DecidableEq

def base62Encode (input : Bytes) : Option Base62Output :=
  if input = [] then some ⟨[], 0⟩
  else
    let zeros := (input.takeWhile (· = 0)).length
    (divideLoop (2 * input.length) (input.drop zeros) []).map (fun digits =>
      let out := digits ++ List.replicate zeros (byteAt base62Alphabet 0)
      ⟨reverseLoop out (out.length / 2) ++ [0], UInt32.ofNat out.length⟩)

def digitsOf (b : Bytes) : List ℕ := b.map UInt8.toNat

def base62Digit (d : ℕ) : UInt8 :=
  if d < 10 then UInt8.ofNat (48 + d)
  else if d < 36 then UInt8.ofNat (65 + (d - 10)) else UInt8.ofNat (97 + (d - 36))

/-- The text that encodes a byte string: its leading zeros and its number in base 62. -/
def base62Text (x : Bytes) : Bytes := (respell 256 62 (digitsOf x)).map base62Digit

def base62Value (c : UInt8) : ℕ :=
  if c.toNat < 65 then c.toNat - 48 else if c.toNat < 97 then c.toNat - 55 else c.toNat - 61

def base62Decode (text : Bytes) : Bytes :=
  (respell 62 256 (text.map base62Value)).map UInt8.ofNat

theorem digitsOf_cons (c : UInt8) (b : Bytes) : digitsOf (c :: b) = c.toNat :: digitsOf b := rfl

theorem digitsOf_lt (b : Bytes) : ∀ d ∈ digitsOf b, d < 256 := by
  intro d hd
  obtain ⟨c, -, rfl⟩ := List.mem_map.mp hd
  exact c.toNat_lt

theorem map_ofNat_digitsOf (b : Bytes) : (digitsOf b).map UInt8.ofNat = b := by
  induction b with
  | nil => rfl
  | cons c b ih => rw [digitsOf_cons, List.map_cons, ih, UInt8.ofNat_toNat]

theorem digitsOf_dropWhile (b : Bytes) :
    digitsOf (b.dropWhile (· = 0)) = (digitsOf b).dropWhile (· = 0) := by
  induction b with
  | nil => rfl
  | cons c b ih =>
      have hc : (c = 0) ↔ c.toNat = 0 := by
        rw [← UInt8.toNat_inj]
        rfl
      by_cases hz : c = 0
      · rw [List.dropWhile_cons_of_pos (by simpa using hz), ih, digitsOf_cons,
          List.dropWhile_cons_of_pos (by simpa using hc.mp hz)]
      · rw [List.dropWhile_cons_of_neg (by simpa using hz), digitsOf_cons,
          List.dropWhile_cons_of_neg (by simpa using fun h => hz (hc.mpr h))]

theorem leadingZeros_digitsOf (b : Bytes) :
    leadingZeros (digitsOf b) = (b.takeWhile (· = 0)).length := by
  have hb := congrArg List.length (@List.takeWhile_append_dropWhile _ (fun c => decide (c = 0)) b)
  have hd := congrArg List.length
    (@List.takeWhile_append_dropWhile _ (fun d => decide (d = 0)) (digitsOf b))
  have hdrop := congrArg List.length (digitsOf_dropWhile b)
  simp only [digitsOf, List.length_append, List.length_map] at hb hd hdrop
  simp only [leadingZeros, digitsOf]
  omega

/-- The dividend of a pass is what it looks like: the carry is too small to lose a bit. -/
theorem dividend_toNat {r : UInt32} (hr : r.toNat < 62) (c : UInt8) :
    (r <<< 8 ||| c.toUInt32).toNat = r.toNat * 256 + c.toNat := by
  have hc := c.toNat_lt
  rw [UInt32.toNat_or, UInt32.toNat_shiftLeft, UInt8.toNat_toUInt32]
  have hshift : r.toNat <<< (UInt32.toNat 8 % 32) % 2 ^ 32 = r.toNat <<< 8 := by
    apply Nat.mod_eq_of_lt
    show r.toNat <<< 8 < 2 ^ 32
    rw [Nat.shiftLeft_eq]
    omega
  rw [hshift, ← Nat.shiftLeft_add_eq_or_of_lt hc, Nat.shiftLeft_eq]

theorem divideTmp_eq {r : UInt32} (hr : r.toNat < 62) (tmp : Bytes) :
    (divideTmp r tmp).1.map UInt32.toNat = (longDiv 256 62 r.toNat (digitsOf tmp)).1 ∧
      (divideTmp r tmp).2.toNat = (longDiv 256 62 r.toNat (digitsOf tmp)).2 := by
  induction tmp generalizing r with
  | nil => exact ⟨rfl, rfl⟩
  | cons c tmp ih =>
      have hdividend := dividend_toNat hr c
      have hmod : ((r <<< 8 ||| c.toUInt32) % 62).toNat = (r.toNat * 256 + c.toNat) % 62 := by
        rw [UInt32.toNat_mod, hdividend]
        rfl
      have hdiv : ((r <<< 8 ||| c.toUInt32) / 62).toNat = (r.toNat * 256 + c.toNat) / 62 := by
        rw [UInt32.toNat_div, hdividend]
        rfl
      have hrest := @ih ((r <<< 8 ||| c.toUInt32) % 62) (by rw [hmod]; omega)
      rw [hmod] at hrest
      constructor
      · simp only [divideTmp, List.map_cons, digitsOf, longDiv, hdiv]
        rw [hrest.1]
        rfl
      · exact hrest.2

/-- Every quotient fits the byte it is stored in. -/
theorem quotient_lt (tmp : Bytes) : ∀ q ∈ (divideTmp 0 tmp).1, q.toNat < 256 := by
  intro q hq
  have hmem : q.toNat ∈ (divideTmp 0 tmp).1.map UInt32.toNat := List.mem_map_of_mem hq
  rw [(divideTmp_eq (r := 0) (by decide) tmp).1] at hmem
  exact longDiv_quotient_lt (by decide) (digitsOf_lt tmp) _ hmem

theorem toNat_toUInt8_of_lt {q : UInt32} (hq : q.toNat < 256) : q.toUInt8.toNat = q.toNat := by
  rw [UInt32.toNat_toUInt8]
  omega

theorem digitsOf_nextTmp (tmp : Bytes) :
    digitsOf (nextTmp tmp) = (longDiv 256 62 0 (digitsOf tmp)).1.dropWhile (· = 0) := by
  have hcast : digitsOf ((divideTmp 0 tmp).1.map UInt32.toUInt8) =
      (divideTmp 0 tmp).1.map UInt32.toNat := by
    rw [digitsOf, List.map_map]
    apply List.map_congr_left
    intro q hq
    exact toNat_toUInt8_of_lt (quotient_lt tmp q hq)
  rw [nextTmp, digitsOf_dropWhile, hcast, (divideTmp_eq (r := 0) (by decide) tmp).1]
  rfl

theorem value_nextTmp (tmp : Bytes) :
    value 256 (digitsOf (nextTmp tmp)) = value 256 (digitsOf tmp) / 62 := by
  rw [digitsOf_nextTmp, value_dropWhile, (value_longDiv (by decide) _).1]

theorem remainder_divideTmp (tmp : Bytes) :
    (divideTmp 0 tmp).2.toNat = value 256 (digitsOf tmp) % 62 := by
  rw [(divideTmp_eq (r := 0) (by decide) tmp).2]
  exact (value_longDiv (by decide) _).2

theorem byteAt_base62Alphabet {d : ℕ} (hd : d < 62) : byteAt base62Alphabet d = base62Digit d := by
  have h : ((List.range 62).all fun d => byteAt base62Alphabet d == base62Digit d) = true := rfl
  simpa using List.all_eq_true.mp h d (List.mem_range.mpr hd)

theorem base62Value_base62Digit {d : ℕ} (hd : d < 62) : base62Value (base62Digit d) = d := by
  unfold base62Digit
  split_ifs with h₁ h₂
  · simp only [base62Value, UInt8.toNat_ofNat']
    split_ifs <;> omega
  · simp only [base62Value, UInt8.toNat_ofNat']
    split_ifs <;> omega
  · simp only [base62Value, UInt8.toNat_ofNat']
    split_ifs <;> omega

theorem value_pos_of_head {tmp : Bytes} (hne : tmp ≠ []) (hhead : tmp.head hne ≠ 0) :
    0 < value 256 (digitsOf tmp) := by
  cases tmp with
  | nil => exact absurd rfl hne
  | cons c tmp =>
      have hc : 0 < c.toNat := by
        apply Nat.pos_of_ne_zero
        intro hz
        exact hhead (UInt8.toNat_inj.mp hz)
      have hmul := Nat.mul_pos hc
        (Nat.pow_pos (n := (digitsOf tmp).length) (show 0 < 256 by decide))
      rw [digitsOf_cons, value_cons]
      omega

theorem head_nextTmp_ne_zero (tmp : Bytes) (h : nextTmp tmp ≠ []) : (nextTmp tmp).head h ≠ 0 := by
  have hnot := List.head_dropWhile_not (fun c : UInt8 => decide (c = 0)) h
  exact of_decide_eq_false hnot

/-- The loop writes the digits of the number, the least significant one first, and as many passes as
there are digits suffice. The invariant is that `tmp` has no leading zero, so that it is empty only
when the number is zero. -/
theorem divideLoop_eq (fuel : ℕ) (tmp out : Bytes) (hhead : ∀ h : tmp ≠ [], tmp.head h ≠ 0)
    (hfuel : (Nat.digits 62 (value 256 (digitsOf tmp))).length ≤ fuel) :
    divideLoop fuel tmp out =
      some (out ++ (Nat.digits 62 (value 256 (digitsOf tmp))).map base62Digit) := by
  induction fuel generalizing tmp out with
  | zero =>
      have hnil : tmp = [] := by
        by_contra hne
        have hpos := value_pos_of_head hne (hhead hne)
        rw [Nat.digits_def' (by decide) hpos] at hfuel
        exact absurd hfuel (Nat.not_succ_le_zero _)
      subst hnil
      simp [divideLoop, digitsOf]
  | succ fuel ih =>
      by_cases hnil : tmp = []
      · subst hnil
        simp [divideLoop, digitsOf]
      · have hpos := value_pos_of_head hnil (hhead hnil)
        have hdigits := Nat.digits_def' (b := 62) (by decide) hpos
        rw [hdigits, List.length_cons] at hfuel
        have hrest := ih (nextTmp tmp) (out ++ [byteAt base62Alphabet (divideTmp 0 tmp).2.toNat])
          (head_nextTmp_ne_zero tmp) (by rw [value_nextTmp]; omega)
        rw [divideLoop, if_neg hnil, hrest, value_nextTmp, remainder_divideTmp,
          byteAt_base62Alphabet (Nat.mod_lt _ (by decide)), hdigits, List.map_cons,
          List.append_assoc]
        rfl

theorem length_base62Text_le (x : Bytes) : (base62Text x).length ≤ 2 * x.length := by
  have h := length_respell_le (b := 256) (c := 62) (k := 2) (by decide) (by decide) (by decide)
    (by decide) (digitsOf_lt x)
  rw [base62Text, List.length_map]
  rwa [digitsOf, List.length_map] at h

theorem base62Decode_base62Text (x : Bytes) : base62Decode (base62Text x) = x := by
  have hdigits : (base62Text x).map base62Value = respell 256 62 (digitsOf x) := by
    rw [base62Text, List.map_map]
    conv_rhs => rw [← List.map_id (respell 256 62 (digitsOf x))]
    apply List.map_congr_left
    intro d hd
    exact base62Value_base62Digit (lt_of_mem_respell (by decide) hd)
  rw [base62Decode, hdigits, respell_respell (by decide) 62 (digitsOf_lt x), map_ofNat_digitsOf]

theorem drop_leadingZeros (x : Bytes) :
    x.drop (x.takeWhile (· = 0)).length = x.dropWhile (· = 0) := by
  have h := @List.takeWhile_append_dropWhile _ (fun c : UInt8 => decide (c = 0)) x
  calc x.drop (x.takeWhile (· = 0)).length
      = (x.takeWhile (· = 0) ++ x.dropWhile (· = 0)).drop (x.takeWhile (· = 0)).length := by rw [h]
    _ = x.dropWhile (· = 0) := List.drop_left

theorem base62Encode_eq {x : Bytes} (hx : x ≠ []) :
    base62Encode x = some ⟨base62Text x ++ [0], UInt32.ofNat (base62Text x).length⟩ := by
  have hvalue : value 256 (digitsOf (x.dropWhile (· = 0))) = value 256 (digitsOf x) := by
    rw [digitsOf_dropWhile, value_dropWhile]
  have htext : base62Text x = (((Nat.digits 62 (value 256 (digitsOf x))).map base62Digit) ++
      List.replicate (x.takeWhile (· = 0)).length (byteAt base62Alphabet 0)).reverse := by
    rw [base62Text, respell, leadingZeros_digitsOf, List.map_append, List.map_replicate,
      List.map_reverse, List.reverse_append, List.reverse_replicate,
      byteAt_base62Alphabet (by decide)]
  have hlen := length_base62Text_le x
  have hfuel : (Nat.digits 62 (value 256 (digitsOf x))).length ≤ 2 * x.length := by
    rw [htext, List.length_reverse, List.length_append, List.length_map] at hlen
    omega
  have hloop := divideLoop_eq (2 * x.length) (x.dropWhile (· = 0)) []
    (fun h => of_decide_eq_false (List.head_dropWhile_not (fun c : UInt8 => decide (c = 0)) h))
    (by rwa [hvalue])
  rw [hvalue, List.nil_append] at hloop
  simp only [base62Encode, if_neg hx, drop_leadingZeros, hloop, Option.map_some, reverseLoop_eq,
    ← htext]
  rw [htext, List.length_reverse]

/-- The encoding of a byte string is its base-62 text, and the text determines the string. -/
theorem base62Encode_decodable (x : Bytes) (hx : x ≠ []) (hlen : x.length < 2 ^ 31) :
    (∃ outIdx : UInt32, base62Encode x = some ⟨base62Text x ++ [0], outIdx⟩ ∧
      outIdx.toNat = (base62Text x).length) ∧
    (∀ y : Bytes, y ≠ [] → y.length < 2 ^ 31 →
      (base62Encode y).map Base62Output.out = (base62Encode x).map Base62Output.out → y = x) ∧
    ∀ tmp : Bytes, ∀ q ∈ (divideTmp 0 tmp).1, q.toUInt8.toNat = q.toNat := by
  refine ⟨⟨_, base62Encode_eq hx, ?_⟩, ?_, ?_⟩
  · have hle := length_base62Text_le x
    rw [UInt32.toNat_ofNat', Nat.mod_eq_of_lt (by omega)]
  · intro y hy _ hout
    rw [base62Encode_eq hx, base62Encode_eq hy] at hout
    have htext : base62Text y = base62Text x :=
      List.append_cancel_right (Option.some.inj hout)
    rw [← base62Decode_base62Text y, htext, base62Decode_base62Text]
  · intro tmp q hq
    exact toNat_toUInt8_of_lt (quotient_lt tmp q hq)

theorem base62Encode_decodable_message :
    base62Text (ascii "messagei+/") = ascii "2a7oZkl5ty6sG7" := by
  obtain ⟨⟨outIdx, hout, -⟩, -⟩ := base62Encode_decodable (ascii "messagei+/") (by decide)
    (by decide)
  have heval : base62Encode (ascii "messagei+/") = some ⟨ascii "2a7oZkl5ty6sG7" ++ [0], 14⟩ := by
    decide
  rw [heval] at hout
  have htext := congrArg Base62Output.out (Option.some.inj hout)
  exact (List.append_cancel_right htext).symm

end NanoMQ
