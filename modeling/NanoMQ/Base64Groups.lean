import NanoMQ.Base64

/-!
# Which payloads base 64 loses

The groups of a payload are the digits in base 64 of a multiple of its number, so that payloads of
one length and lists of groups determine each other. Two groups are written with the letter of
another one. A payload can be read back exactly if none of its groups is one of these four; the last
group, where it is filled up with zeros, is never merged with another one.
-/

namespace NanoMQ

open ByteBuffer Positional

def padBits (n : ℕ) : ℕ := (6 - 8 * n % 6) % 6

structure GroupsOf (x : Bytes) (groups : List ℕ) : Prop where
  group_lt : ∀ g ∈ groups, g < 64
  length : 6 * groups.length = 8 * x.length + padBits x.length
  value : value 64 groups = value 256 (digitsOf x) * 2 ^ padBits x.length

theorem padBits_cases (n : ℕ) : padBits n = 0 ∨ padBits n = 2 ∨ padBits n = 4 := by
  unfold padBits
  omega

theorem two_pow_padBits_dvd (n : ℕ) : 2 ^ padBits n ∣ 64 := by
  rcases padBits_cases n with h | h | h <;> rw [h] <;> decide

theorem base64NoPaddingEncode_groups (x : Bytes) :
    ∃ groups, GroupsOf x groups ∧ (base64NoPaddingEncode x).out = groups.map base64Char := by
  obtain ⟨hpos, groups, h⟩ := foldl_base64Step_grouped x
  change ∃ groups, GroupsOf x groups ∧
    base64Finish (x.foldl base64Step ⟨0, 0, []⟩) = groups.map base64Char
  generalize x.foldl base64Step ⟨0, 0, []⟩ = s at hpos h
  have hbits := h.bits
  rw [base64Finish]
  split_ifs with hleft
  · have hpad : padBits x.length = 6 - s.pos := by
      unfold padBits
      omega
    have hpow : (2 : ℕ) ^ s.pos * 2 ^ (6 - s.pos) = 64 := by
      rw [← Nat.pow_add, show s.pos + (6 - s.pos) = 6 by omega]
    have hlast : s.val.toNat * 2 ^ (6 - s.pos) < 64 := by
      rw [← hpow]
      exact Nat.mul_lt_mul_of_pos_right h.val_lt (Nat.two_pow_pos _)
    refine ⟨groups ++ [s.val.toNat * 2 ^ (6 - s.pos)], ⟨?_, ?_, ?_⟩, ?_⟩
    · intro g hg
      rcases List.mem_append.mp hg with hg | hg
      · exact h.group_lt g hg
      · rwa [List.mem_singleton.mp hg]
    · rw [hpad, List.length_append, List.length_singleton]
      omega
    · rw [hpad, value_concat, ← h.value, Nat.add_mul, Nat.mul_assoc, hpow]
    · rw [toNat_shiftLeft_ofNat (by omega) (hlast.trans (by decide)), setChar_alphabet hlast, h.out,
        List.map_append]
      rfl
  · have hzero : s.pos = 0 := Nat.eq_zero_of_not_pos hleft
    have hpad : padBits x.length = 0 := by
      unfold padBits
      omega
    have hval : s.val.toNat = 0 := by
      have := h.val_lt
      rw [hzero] at this
      omega
    refine ⟨groups, ⟨h.group_lt, by rw [hpad]; omega, ?_⟩, h.out⟩
    rw [hpad, ← h.value, hzero, hval, Nat.pow_zero, Nat.mul_one, Nat.mul_one, Nat.add_zero]

section Groups

variable {x y : Bytes} {groups : List ℕ}

theorem GroupsOf.unique {groups' : List ℕ} (h : GroupsOf x groups) (h' : GroupsOf x groups') :
    groups = groups' := by
  apply value_injective (by decide) h.group_lt h'.group_lt
  · have := h.length
    have := h'.length
    omega
  · rw [h.value, h'.value]

theorem digitsOf_injective (h : digitsOf x = digitsOf y) : x = y := by
  rw [← map_ofNat_digitsOf x, h, map_ofNat_digitsOf]

theorem GroupsOf.injective (hx : GroupsOf x groups) (hy : GroupsOf y groups)
    (hlen : y.length = x.length) : y = x := by
  apply digitsOf_injective
  apply value_injective (by decide) (digitsOf_lt y) (digitsOf_lt x)
  · rw [digitsOf, digitsOf, List.length_map, List.length_map, hlen]
  · have hmul := hy.value.symm.trans hx.value
    rw [hlen] at hmul
    exact Nat.eq_of_mul_eq_mul_right (Nat.two_pow_pos _) hmul

theorem digitsOf_map_ofNat {digits : List ℕ} (h : ∀ d ∈ digits, d < 256) :
    digitsOf (digits.map UInt8.ofNat) = digits := by
  have hid : ∀ d ∈ digits, (UInt8.toNat ∘ UInt8.ofNat) d = id d := by
    intro d hd
    rw [Function.comp_apply, UInt8.toNat_ofNat', Nat.mod_eq_of_lt (h d hd), id]
  rw [digitsOf, List.map_map, List.map_congr_left hid, List.map_id]

/-- Every list of groups whose last one ends in the right zeros is that of a payload. -/
theorem exists_groupsOf {n : ℕ} (hlt : ∀ g ∈ groups, g < 64)
    (hlen : 6 * groups.length = 8 * n + padBits n) (hdvd : 2 ^ padBits n ∣ value 64 groups) :
    ∃ y : Bytes, y.length = n ∧ GroupsOf y groups := by
  obtain ⟨v, hv⟩ := hdvd
  have hpow : 64 ^ groups.length = 2 ^ padBits n * 256 ^ n := by
    calc 64 ^ groups.length = 2 ^ (6 * groups.length) := by rw [Nat.pow_mul]
      _ = 2 ^ padBits n * 2 ^ (8 * n) := by rw [hlen, Nat.add_comm, Nat.pow_add]
      _ = 2 ^ padBits n * 256 ^ n := by rw [Nat.pow_mul]
  have hfits : v < 256 ^ n := by
    have hvalue := value_lt (by decide : 1 < 64) hlt
    rw [hv, hpow] at hvalue
    exact Nat.lt_of_mul_lt_mul_left hvalue
  obtain ⟨digits, hdigits, hdlt, hdvalue⟩ := exists_value (by decide : 1 < 256) n hfits
  have hlength : (digits.map UInt8.ofNat).length = n := by rw [List.length_map, hdigits]
  refine ⟨digits.map UInt8.ofNat, hlength, hlt, ?_, ?_⟩
  · rw [hlength, hlen]
  · rw [hlength, digitsOf_map_ofNat hdlt, hdvalue, hv, Nat.mul_comm]

theorem GroupsOf.getElem? (h : GroupsOf x groups) {i : ℕ} (hi : i < 8 * x.length / 6) :
    groups[i]? = some (sixBits x i) := by
  have hlen := h.length
  have hshift : 64 ^ (groups.length - 1 - i) =
      2 ^ (8 * x.length - 6 * (i + 1)) * 2 ^ padBits x.length := by
    calc 64 ^ (groups.length - 1 - i) = 2 ^ (6 * (groups.length - 1 - i)) := by rw [Nat.pow_mul]
      _ = 2 ^ (8 * x.length - 6 * (i + 1) + padBits x.length) := by
        congr 1
        omega
      _ = 2 ^ (8 * x.length - 6 * (i + 1)) * 2 ^ padBits x.length := Nat.pow_add 2 _ _
  rw [getElem?_eq_value (by decide) h.group_lt (by omega), h.value, hshift,
    Nat.mul_div_mul_right _ _ (Nat.two_pow_pos _), sixBits]

theorem GroupsOf.dvd_of_incomplete (h : GroupsOf x groups) {i g : ℕ}
    (hi : 8 * x.length / 6 ≤ i) (hg : groups[i]? = some g) : 4 ∣ g := by
  have hlen := h.length
  have hlt := (List.getElem?_eq_some_iff.mp hg).1
  have hpad := padBits_cases x.length
  have hfour : 4 ∣ 2 ^ padBits x.length := by
    rcases hpad with hpad | hpad | hpad
    · omega
    · rw [hpad]
      decide
    · rw [hpad]
      decide
  have hdigit := getElem?_eq_value (by decide) h.group_lt hlt
  rw [hg, show groups.length - 1 - i = 0 by omega, Nat.pow_zero, Nat.div_one, h.value] at hdigit
  rw [Option.some.inj hdigit]
  exact (Nat.dvd_mod_iff (by decide)).mpr (Dvd.dvd.mul_left hfour _)

end Groups

def twin (group : ℕ) : ℕ :=
  if group = 0 then 62 else if group = 1 then 63 else if group = 62 then 0 else 1

theorem twin_spec {g : ℕ} (h : g ∈ [0, 1, 62, 63]) :
    twin g < 64 ∧ twin g ≠ g ∧ base64Char (twin g) = base64Char g := by
  have hall : ∀ g ∈ [0, 1, 62, 63],
      twin g < 64 ∧ twin g ≠ g ∧ base64Char (twin g) = base64Char g := by
    decide +kernel
  exact hall g h

section Merging

variable {x y : Bytes} {groups : List ℕ}

theorem encode_eq_of_out (h : (base64NoPaddingEncode y).out = (base64NoPaddingEncode x).out) :
    base64NoPaddingEncode y = base64NoPaddingEncode x :=
  congrArg (fun out : Bytes => Base64Output.mk out (UInt32.ofNat out.length)) h

theorem GroupsOf.out (h : GroupsOf x groups) :
    (base64NoPaddingEncode x).out = groups.map base64Char := by
  obtain ⟨groups', h', hout⟩ := base64NoPaddingEncode_groups x
  rw [hout, h.unique h']

/-- With another complete group in its place the list is still that of a payload. -/
theorem exists_groupsOf_replaced {front back : List ℕ} {g t : ℕ}
    (h : GroupsOf x (front ++ g :: back)) (hcomplete : front.length < 8 * x.length / 6)
    (ht : t < 64) :
    ∃ y : Bytes, y.length = x.length ∧ GroupsOf y (front ++ t :: back) := by
  have hlen := h.length
  rw [List.length_append, List.length_cons] at hlen
  apply exists_groupsOf
  · intro d hd
    rcases List.mem_append.mp hd with hd | hd
    · exact h.group_lt d (List.mem_append_left _ hd)
    · rcases List.mem_cons.mp hd with rfl | hd
      · exact ht
      · exact h.group_lt d (List.mem_append_right _ (List.mem_cons_of_mem _ hd))
  · rw [List.length_append, List.length_cons, hlen]
  · -- only multiples of a power of 64 change, and there are some unless nothing is filled up
    have hpow : 2 ^ padBits x.length ∣ 64 ^ back.length := by
      by_cases hpad : padBits x.length = 0
      · rw [hpad]
        exact one_dvd _
      · exact (two_pow_padBits_dvd x.length).trans (dvd_pow_self 64 (by omega))
    have hsplit : ∀ d, value 64 (front ++ d :: back) =
        64 ^ back.length * (value 64 front * 64 + d) + value 64 back := by
      intro d
      rw [value_append, value_cons, List.length_cons, Nat.pow_succ]
      ring
    have hdvd : 2 ^ padBits x.length ∣ value 64 (front ++ g :: back) := by
      rw [h.value]
      exact Nat.dvd_mul_left _ _
    rw [hsplit, Nat.dvd_add_right (Dvd.dvd.mul_right hpow _)] at hdvd
    rw [hsplit]
    exact Nat.dvd_add (Dvd.dvd.mul_right hpow _) hdvd

/-- A payload with one of the four groups is written like another one. -/
theorem exists_same_encoding {i : ℕ} (hi : i < 8 * x.length / 6)
    (hbad : sixBits x i ∈ [0, 1, 62, 63]) :
    ∃ y : Bytes, y.length = x.length ∧ base64NoPaddingEncode y = base64NoPaddingEncode x ∧
      y ≠ x := by
  obtain ⟨groups, hx, -⟩ := base64NoPaddingEncode_groups x
  obtain ⟨htwin, hne, hchar⟩ := twin_spec hbad
  obtain ⟨hlt, hget⟩ := List.getElem?_eq_some_iff.mp (hx.getElem? hi)
  have hsplit : groups = groups.take i ++ sixBits x i :: groups.drop (i + 1) := by
    rw [← hget, ← List.drop_eq_getElem_cons hlt, List.take_append_drop]
  rw [hsplit] at hx
  obtain ⟨y, hlen, hy⟩ := exists_groupsOf_replaced hx (by rw [List.length_take]; omega) htwin
  refine ⟨y, hlen, encode_eq_of_out ?_, ?_⟩
  · rw [hx.out, hy.out, List.map_append, List.map_append, List.map_cons, List.map_cons, hchar]
  · rintro rfl
    have heq := List.append_cancel_left (hy.unique hx)
    exact hne (List.cons.inj heq).1

/-- A payload without any of the four groups is read back from its encoding. -/
theorem eq_of_same_encoding (hgood : ∀ i < 8 * x.length / 6, sixBits x i ∉ [0, 1, 62, 63])
    (hlen : y.length = x.length) (h : base64NoPaddingEncode y = base64NoPaddingEncode x) :
    y = x := by
  obtain ⟨gx, hx, hxout⟩ := base64NoPaddingEncode_groups x
  obtain ⟨gy, hy, hyout⟩ := base64NoPaddingEncode_groups y
  have hmap : gy.map base64Char = gx.map base64Char := by
    rw [← hxout, ← hyout, h]
  have hsame : gy = gx := by
    apply List.ext_getElem
    · rw [← List.length_map base64Char, hmap, List.length_map]
    · intro i hiy hix
      have hchar : base64Char gy[i] = base64Char gx[i] := by
        have := congrArg (fun l => l[i]?) hmap
        simpa [List.getElem?_eq_getElem hiy, List.getElem?_eq_getElem hix] using this
      rw [base64Char_eq_iff (hy.group_lt _ (List.getElem_mem hiy))
        (hx.group_lt _ (List.getElem_mem hix))] at hchar
      by_cases hcomplete : i < 8 * x.length / 6
      · have hget : gx[i] = sixBits x i :=
          Option.some.inj ((List.getElem?_eq_getElem hix).symm.trans (hx.getElem? hcomplete))
        rw [hget] at hchar ⊢
        exact (merged_eq_iff (hgood i hcomplete) _).mp hchar
      · have hxdvd := hx.dvd_of_incomplete (Nat.le_of_not_lt hcomplete)
          (List.getElem?_eq_getElem hix)
        have hydvd := hy.dvd_of_incomplete (by rw [hlen]; exact Nat.le_of_not_lt hcomplete)
          (List.getElem?_eq_getElem hiy)
        rwa [merged_of_dvd hxdvd, merged_of_dvd hydvd] at hchar
  rw [hsame] at hy
  exact hx.injective hy hlen

end Merging

/-- A payload can be told from all others of its length exactly if none of its complete groups of
six bits is written like another one. -/
theorem base64_injective_iff (x : Bytes) :
    (∀ y : Bytes, y.length = x.length →
      base64NoPaddingEncode y = base64NoPaddingEncode x → y = x) ↔
      ∀ i < 8 * x.length / 6, sixBits x i ∉ [0, 1, 62, 63] := by
  constructor
  · intro h i hi hbad
    obtain ⟨y, hlen, hsame, hne⟩ := exists_same_encoding hi hbad
    exact hne (h y hlen hsame)
  · intro hgood y hlen hsame
    exact eq_of_same_encoding hgood hlen hsame

/-- The bytes `F8` and `00` are both written as `AA`. -/
theorem base64_loses_byte :
    base64NoPaddingEncode [248] = ⟨ascii "AA", 2⟩ ∧ base64NoPaddingEncode [0] = ⟨ascii "AA", 2⟩ ∧
      ([248] : Bytes) ≠ [0] := by
  decide +kernel

end NanoMQ
