import Mathlib.Data.Nat.Digits.Lemmas
import Mathlib.Data.List.TakeWhile

/-!
# Positional notation with leading zeros

A list of digits, most significant first, denotes a number in its base; its leading zeros are lost
in that number. The pair of the two determines the list, so a list can be respelled in another base,
keeping the zeros, and read back. `longDiv` is schoolbook division of such a list by a number that
fits the carry: the quotient digits are again digits of the base.
-/

namespace Positional

/-- The number that a list of digits denotes, the most significant one first. -/
def value (b : ℕ) (l : List ℕ) : ℕ := Nat.ofDigits b l.reverse

def leadingZeros (l : List ℕ) : ℕ := (l.takeWhile (· = 0)).length

/-- The digits of the same number in base `c`, behind as many zeros. -/
def respell (b c : ℕ) (l : List ℕ) : List ℕ :=
  List.replicate (leadingZeros l) 0 ++ (Nat.digits c (value b l)).reverse

def longDiv (b q : ℕ) : ℕ → List ℕ → List ℕ × ℕ
  | r, [] => ([], r)
  | r, d :: l =>
      ((r * b + d) / q :: (longDiv b q ((r * b + d) % q) l).1,
        (longDiv b q ((r * b + d) % q) l).2)

@[simp] theorem value_nil (b : ℕ) : value b [] = 0 := rfl

theorem value_cons (b d : ℕ) (l : List ℕ) : value b (d :: l) = d * b ^ l.length + value b l := by
  rw [value, List.reverse_cons, Nat.ofDigits_append, Nat.ofDigits_singleton, List.length_reverse,
    value]
  ring

theorem value_lt {b : ℕ} (hb : 1 < b) {l : List ℕ} (hl : ∀ d ∈ l, d < b) :
    value b l < b ^ l.length := by
  have h := Nat.ofDigits_lt_base_pow_length hb (fun d hd => hl d (List.mem_reverse.mp hd))
  rwa [List.length_reverse] at h

theorem value_append (b : ℕ) (l m : List ℕ) :
    value b (l ++ m) = value b l * b ^ m.length + value b m := by
  rw [value, List.reverse_append, Nat.ofDigits_append, List.length_reverse, value, value,
    Nat.mul_comm, Nat.add_comm]

theorem value_concat (b : ℕ) (l : List ℕ) (d : ℕ) : value b (l ++ [d]) = value b l * b + d := by
  rw [value_append, value_cons, List.length_nil, List.length_singleton, Nat.pow_one, Nat.pow_zero,
    Nat.mul_one, value_nil, Nat.add_zero]

theorem value_cons_div_mod {b : ℕ} (hb : 1 < b) (d : ℕ) {l : List ℕ} (hl : ∀ e ∈ l, e < b) :
    value b (d :: l) / b ^ l.length = d ∧ value b (d :: l) % b ^ l.length = value b l := by
  have hlt := value_lt hb hl
  have hpos : 0 < b ^ l.length := Nat.lt_of_le_of_lt (Nat.zero_le _) hlt
  rw [value_cons, Nat.add_comm]
  constructor
  · rw [Nat.add_mul_div_right _ _ hpos, Nat.div_eq_of_lt hlt, Nat.zero_add]
  · rw [Nat.add_mul_mod_self_right, Nat.mod_eq_of_lt hlt]

/-- The length and the value determine a list of digits. -/
theorem value_injective {b : ℕ} (hb : 1 < b) {l m : List ℕ} (hl : ∀ d ∈ l, d < b)
    (hm : ∀ d ∈ m, d < b) (hlen : l.length = m.length) (h : value b l = value b m) : l = m := by
  induction l generalizing m with
  | nil => exact (List.eq_nil_of_length_eq_zero hlen.symm).symm
  | cons d l ih =>
    cases m with
    | nil => cases hlen
    | cons e m =>
      have hlen' : l.length = m.length := Nat.succ.inj hlen
      have hl' : ∀ d ∈ l, d < b := fun x hx => hl x (List.mem_cons_of_mem d hx)
      have hm' : ∀ d ∈ m, d < b := fun x hx => hm x (List.mem_cons_of_mem e hx)
      obtain ⟨hd, hrest⟩ := value_cons_div_mod hb d hl'
      obtain ⟨he, hrest'⟩ := value_cons_div_mod hb e hm'
      rw [h, hlen'] at hd hrest
      rw [← hd, he, ih hl' hm' hlen' (hrest.symm.trans hrest')]

/-- Every number that fits is the value of a list of digits of the given length. -/
theorem exists_value {b : ℕ} (hb : 1 < b) (n : ℕ) {v : ℕ} (hv : v < b ^ n) :
    ∃ l : List ℕ, l.length = n ∧ (∀ d ∈ l, d < b) ∧ value b l = v := by
  induction n generalizing v with
  | zero =>
    rw [Nat.pow_zero] at hv
    exact ⟨[], rfl, fun d hd => absurd hd List.not_mem_nil, by rw [value_nil]; omega⟩
  | succ n ih =>
    have hpos : 0 < b ^ n := Nat.pow_pos (by omega)
    obtain ⟨l, hlen, hl, hval⟩ := ih (Nat.mod_lt v hpos)
    refine ⟨v / b ^ n :: l, by rw [List.length_cons, hlen], ?_, ?_⟩
    · intro d hd
      rcases List.mem_cons.mp hd with rfl | hd
      · exact Nat.div_lt_of_lt_mul (by rwa [Nat.pow_succ] at hv)
      · exact hl d hd
    · rw [value_cons, hlen, hval, Nat.mul_comm, Nat.div_add_mod]

theorem getElem?_eq_value {b : ℕ} (hb : 1 < b) {l : List ℕ} (hl : ∀ d ∈ l, d < b) {i : ℕ}
    (hi : i < l.length) : l[i]? = some (value b l / b ^ (l.length - 1 - i) % b) := by
  induction l generalizing i with
  | nil => cases hi
  | cons d l ih =>
    have hl' : ∀ e ∈ l, e < b := fun x hx => hl x (List.mem_cons_of_mem d hx)
    obtain ⟨hd, hrest⟩ := value_cons_div_mod hb d hl'
    rw [List.length_cons, Nat.add_sub_cancel]
    cases i with
    | zero => rw [Nat.sub_zero, hd, Nat.mod_eq_of_lt (hl d List.mem_cons_self)]; rfl
    | succ i =>
      have hi' : i < l.length := Nat.lt_of_succ_lt_succ hi
      have hsplit : b ^ l.length = b ^ (l.length - (i + 1)) * b ^ (i + 1) := by
        rw [← Nat.pow_add, Nat.sub_add_cancel hi']
      have hdigit : value b (d :: l) / b ^ (l.length - (i + 1)) % b =
          value b l / b ^ (l.length - (i + 1)) % b := by
        rw [← hrest, hsplit, Nat.mod_mul_right_div_self,
          Nat.mod_mod_of_dvd _ (dvd_pow_self b i.succ_ne_zero)]
      rw [List.getElem?_cons_succ, ih hl' hi', hdigit, Nat.sub_sub, Nat.add_comm 1 i]

theorem value_dropWhile (b : ℕ) (l : List ℕ) : value b (l.dropWhile (· = 0)) = value b l := by
  induction l with
  | nil => rfl
  | cons d l ih =>
      by_cases hd : d = 0
      · rw [List.dropWhile_cons_of_pos (by simpa using hd), ih, value_cons, hd]
        omega
      · rw [List.dropWhile_cons_of_neg (by simpa using hd)]

theorem digits_value {b : ℕ} (hb : 1 < b) {l : List ℕ} (hl : ∀ d ∈ l, d < b)
    (hhead : ∀ h : l ≠ [], l.head h ≠ 0) : (Nat.digits b (value b l)).reverse = l := by
  have h := Nat.digits_ofDigits b hb l.reverse (fun d hd => hl d (List.mem_reverse.mp hd))
    (fun hne => by
      rw [List.getLast_reverse]
      exact hhead _)
  rw [value, h, List.reverse_reverse]

theorem head_dropWhile_ne_zero (l : List ℕ) (h : l.dropWhile (· = 0) ≠ []) :
    (l.dropWhile (· = 0)).head h ≠ 0 := by
  have hnot := List.head_dropWhile_not (fun d : ℕ => decide (d = 0)) h
  simpa using hnot

theorem takeWhile_zero (l : List ℕ) :
    l.takeWhile (· = 0) = List.replicate (leadingZeros l) 0 := by
  apply List.eq_replicate_of_mem
  intro d hd
  simpa using List.mem_takeWhile_imp hd

/-- The leading zeros and the value determine a list of digits. -/
theorem respell_self {b : ℕ} (hb : 1 < b) {l : List ℕ} (hl : ∀ d ∈ l, d < b) :
    respell b b l = l := by
  have hrest : ∀ d ∈ l.dropWhile (· = 0), d < b :=
    fun d hd => hl d ((List.dropWhile_sublist _).mem hd)
  have hdigits := digits_value hb hrest (head_dropWhile_ne_zero l)
  rw [value_dropWhile] at hdigits
  rw [respell, hdigits, ← takeWhile_zero, List.takeWhile_append_dropWhile]

theorem leadingZeros_replicate_append (n : ℕ) {l : List ℕ} (hhead : ∀ h : l ≠ [], l.head h ≠ 0) :
    leadingZeros (List.replicate n 0 ++ l) = n := by
  induction n with
  | zero =>
      cases l with
      | nil => rfl
      | cons d l =>
          have hd : d ≠ 0 := hhead (List.cons_ne_nil d l)
          simp [leadingZeros, hd]
  | succ n ih =>
      unfold leadingZeros at ih ⊢
      rw [List.replicate_succ, List.cons_append, List.takeWhile_cons_of_pos (by simp),
        List.length_cons, ih]

theorem value_replicate_append (b n : ℕ) (l : List ℕ) :
    value b (List.replicate n 0 ++ l) = value b l := by
  induction n with
  | zero => rfl
  | succ n ih =>
      rw [List.replicate_succ, List.cons_append, value_cons, ih]
      omega

theorem head_digits_ne_zero (c n : ℕ) (h : (Nat.digits c n).reverse ≠ []) :
    (Nat.digits c n).reverse.head h ≠ 0 := by
  have hne : n ≠ 0 := by
    rintro rfl
    simp at h
  rw [List.head_reverse]
  exact Nat.getLast_digit_ne_zero c hne

theorem leadingZeros_respell (b c : ℕ) (l : List ℕ) :
    leadingZeros (respell b c l) = leadingZeros l :=
  leadingZeros_replicate_append _ (head_digits_ne_zero c _)

theorem value_respell (b c : ℕ) (l : List ℕ) : value c (respell b c l) = value b l := by
  rw [respell, value_replicate_append, value, List.reverse_reverse, Nat.ofDigits_digits]

/-- Respelling is undone by respelling in the base the digits came from. -/
theorem respell_respell {b : ℕ} (hb : 1 < b) (c : ℕ) {l : List ℕ} (hl : ∀ d ∈ l, d < b) :
    respell c b (respell b c l) = l := by
  calc respell c b (respell b c l)
      = List.replicate (leadingZeros (respell b c l)) 0 ++
          (Nat.digits b (value c (respell b c l))).reverse := rfl
    _ = respell b b l := by rw [leadingZeros_respell, value_respell, respell]
    _ = l := respell_self hb hl

theorem lt_of_mem_respell {b c : ℕ} (hc : 1 < c) {l : List ℕ} {d : ℕ} (hd : d ∈ respell b c l) :
    d < c := by
  rw [respell, List.mem_append, List.mem_reverse] at hd
  rcases hd with hzero | hdigit
  · rw [List.eq_of_mem_replicate hzero]
    omega
  · exact Nat.digits_lt_base hc hdigit

theorem leadingZeros_add_length (l : List ℕ) :
    leadingZeros l + (l.dropWhile (· = 0)).length = l.length := by
  rw [leadingZeros, ← List.length_append, List.takeWhile_append_dropWhile]

theorem length_respell (b c : ℕ) (l : List ℕ) :
    (respell b c l).length = leadingZeros l + (Nat.digits c (value b l)).length := by
  rw [respell, List.length_append, List.length_replicate, List.length_reverse]

/-- In a base whose `k`-th power is not smaller, respelling makes a list at most `k` times as
long. -/
theorem length_respell_le {b c k : ℕ} (hb : 1 < b) (hc : 1 < c) (hk : 0 < k) (hbc : b ≤ c ^ k)
    {l : List ℕ} (hl : ∀ d ∈ l, d < b) :
    (respell b c l).length ≤ k * l.length := by
  have hrest : ∀ d ∈ l.dropWhile (· = 0), d < b :=
    fun d hd => hl d ((List.dropWhile_sublist _).mem hd)
  have hvalue : value b l < c ^ (k * (l.dropWhile (· = 0)).length) := by
    calc value b l = value b (l.dropWhile (· = 0)) := (value_dropWhile b l).symm
      _ < b ^ (l.dropWhile (· = 0)).length := value_lt hb hrest
      _ ≤ (c ^ k) ^ (l.dropWhile (· = 0)).length := Nat.pow_le_pow_left hbc _
      _ = c ^ (k * (l.dropWhile (· = 0)).length) := (pow_mul c k _).symm
  have hdigits := (Nat.digits_length_le_iff hc _).mpr hvalue
  rw [length_respell, ← leadingZeros_add_length l, Nat.mul_add]
  have hmul := Nat.le_mul_of_pos_left (leadingZeros l) hk
  omega

theorem length_le_length_respell {b c : ℕ} (hc : 1 < c) (hcb : c ≤ b) (l : List ℕ) :
    l.length ≤ (respell b c l).length := by
  rw [length_respell, ← leadingZeros_add_length l]
  apply Nat.add_le_add_left
  rw [← value_dropWhile]
  cases hrest : l.dropWhile (· = 0) with
  | nil => exact Nat.zero_le _
  | cons d rest =>
      have hd : 0 < d := by
        have hne := head_dropWhile_ne_zero l (by rw [hrest]; exact List.cons_ne_nil d rest)
        simp only [hrest, List.head_cons] at hne
        exact Nat.pos_of_ne_zero hne
      have hpow : c ^ rest.length ≤ value b (d :: rest) := by
        calc c ^ rest.length ≤ b ^ rest.length := Nat.pow_le_pow_left hcb _
          _ ≤ d * b ^ rest.length := Nat.le_mul_of_pos_left _ hd
          _ ≤ value b (d :: rest) := by rw [value_cons]; exact Nat.le_add_right _ _
      exact (Nat.lt_digits_length_iff hc _).mpr hpow

/-- Where `q` digits of base `b` carry no more than `p` of base `c`, a list gets at most `p / q`
times as long, up to one digit. -/
theorem length_respell_ratio {b c p q : ℕ} (hb : 1 < b) (hc : 1 < c) (hqp : q ≤ p)
    (hbc : b ^ q ≤ c ^ p) {l : List ℕ} (hl : ∀ d ∈ l, d < b) :
    q * (respell b c l).length ≤ p * l.length + q := by
  have hrest : ∀ d ∈ l.dropWhile (· = 0), d < b :=
    fun d hd => hl d ((List.dropWhile_sublist _).mem hd)
  have hzeros := Nat.mul_le_mul_right (leadingZeros l) hqp
  rw [length_respell, ← leadingZeros_add_length l, Nat.mul_add, Nat.mul_add]
  cases hdigits : (Nat.digits c (value b l)).length with
  | zero => omega
  | succ k =>
      have hpow : c ^ k ≤ value b l :=
        (Nat.lt_digits_length_iff hc _).mp (by rw [hdigits]; exact Nat.lt_succ_self k)
      have hlt : c ^ (q * k) < c ^ (p * (l.dropWhile (· = 0)).length) ∨ q = 0 := by
        rcases Nat.eq_zero_or_pos q with hq | hq
        · exact Or.inr hq
        · left
          calc c ^ (q * k) = (c ^ k) ^ q := by rw [← pow_mul, Nat.mul_comm]
            _ ≤ value b l ^ q := Nat.pow_le_pow_left hpow q
            _ = value b (l.dropWhile (· = 0)) ^ q := by rw [value_dropWhile]
            _ < (b ^ (l.dropWhile (· = 0)).length) ^ q :=
                Nat.pow_lt_pow_left (value_lt hb hrest) (Nat.pos_iff_ne_zero.mp hq)
            _ = (b ^ q) ^ (l.dropWhile (· = 0)).length := by rw [← pow_mul, ← pow_mul, Nat.mul_comm]
            _ ≤ (c ^ p) ^ (l.dropWhile (· = 0)).length := Nat.pow_le_pow_left hbc _
            _ = c ^ (p * (l.dropWhile (· = 0)).length) := (pow_mul c p _).symm
      rcases hlt with hlt | rfl
      · have hk := (Nat.pow_lt_pow_iff_right hc).mp hlt
        rw [Nat.mul_succ]
        omega
      · omega

theorem length_longDiv (b q r : ℕ) (l : List ℕ) : (longDiv b q r l).1.length = l.length := by
  induction l generalizing r with
  | nil => rfl
  | cons d l ih => rw [longDiv, List.length_cons, ih, List.length_cons]

theorem longDiv_eq (b q r : ℕ) (l : List ℕ) :
    r * b ^ l.length + value b l = q * value b (longDiv b q r l).1 + (longDiv b q r l).2 := by
  induction l generalizing r with
  | nil => simp [longDiv]
  | cons d l ih =>
      have hrest := ih ((r * b + d) % q)
      have hdiv := Nat.div_add_mod (r * b + d) q
      simp only [longDiv, value_cons, length_longDiv, List.length_cons]
      calc r * b ^ (l.length + 1) + (d * b ^ l.length + value b l)
          = (r * b + d) * b ^ l.length + value b l := by ring
        _ = (q * ((r * b + d) / q) + (r * b + d) % q) * b ^ l.length + value b l := by rw [hdiv]
        _ = q * ((r * b + d) / q) * b ^ l.length +
              ((r * b + d) % q * b ^ l.length + value b l) := by ring
        _ = _ := by rw [hrest]; ring

theorem longDiv_remainder_lt {q : ℕ} (b : ℕ) {r : ℕ} (hr : r < q) (l : List ℕ) :
    (longDiv b q r l).2 < q := by
  induction l generalizing r with
  | nil => exact hr
  | cons d l ih => exact ih (Nat.mod_lt _ (Nat.zero_lt_of_lt hr))

/-- Every quotient digit is a digit of the base, since the carry is below the divisor. -/
theorem longDiv_quotient_lt {b q r : ℕ} (hr : r < q) {l : List ℕ} (hl : ∀ d ∈ l, d < b) :
    ∀ d ∈ (longDiv b q r l).1, d < b := by
  induction l generalizing r with
  | nil => simp [longDiv]
  | cons d l ih =>
      have hd : d < b := hl d List.mem_cons_self
      intro x hx
      rcases List.mem_cons.mp hx with rfl | hx
      · apply Nat.div_lt_of_lt_mul
        calc r * b + d < r * b + b := by omega
          _ = (r + 1) * b := by ring
          _ ≤ q * b := Nat.mul_le_mul_right b hr
      · exact ih (Nat.mod_lt _ (Nat.zero_lt_of_lt hr))
          (fun y hy => hl y (List.mem_cons_of_mem d hy)) x hx

theorem value_longDiv {b q : ℕ} (hq : 0 < q) (l : List ℕ) :
    value b (longDiv b q 0 l).1 = value b l / q ∧ (longDiv b q 0 l).2 = value b l % q := by
  have heq := longDiv_eq b q 0 l
  have hlt := longDiv_remainder_lt b hq l
  rw [Nat.zero_mul, Nat.zero_add] at heq
  constructor
  · rw [heq, Nat.mul_add_div hq, Nat.div_eq_of_lt hlt, Nat.add_zero]
  · rw [heq, Nat.mul_add_mod, Nat.mod_eq_of_lt hlt]

end Positional
