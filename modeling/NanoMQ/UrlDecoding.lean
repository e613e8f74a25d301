import NanoMQ.CString

/-!
# Decoding of URLs

`URLDecoding` copies a string to a new buffer and replaces `+` by a space and `%` with the two
characters behind it by the byte that `strtol` reads from them to the base sixteen. A string is the
list of its bytes without the terminator. Reading it behind the terminator and writing behind the
end of the buffer are undefined; so is a loop that runs out of fuel.
-/

namespace NanoMQ

open ByteBuffer

def hexDigit (c : UInt8) : Option ℕ :=
  if 48 ≤ c ∧ c ≤ 57 then some (c.toNat - 48)
  else if 65 ≤ c ∧ c ≤ 70 then some (c.toNat - 55)
  else if 97 ≤ c ∧ c ≤ 102 then some (c.toNat - 87)
  else none

/-- `strtol` to the base sixteen on a string of two characters, in which `0x` is no digit and has no
digit behind it. -/
def strtolHex (s : Bytes) : ℤ :=
  let (neg, s) := splitSign ((cstr s).dropWhile isSpace)
  let n : ℕ := ((s.map hexDigit).takeWhile Option.isSome).foldl (fun n d => 16 * n + d.getD 0) 0
  if neg then -n else n

structure UrlState where
  i : ℕ
  j : ℕ
  result : Bytes
  deriving DecidableEq

def urlRead (data : Bytes) (i : ℕ) : Option UInt8 := (data ++ [0])[i]?

def UrlState.put (s : UrlState) (c : UInt8) (i : ℕ) : Option UrlState :=
  if s.j < s.result.length then some ⟨i, s.j + 1, s.result.set s.j c⟩ else none

def urlDecodingStep (data : Bytes) (s : UrlState) : Option UrlState := do
  let c ← urlRead data s.i
  if c = 37 then
    if s.i + 2 < data.length then do
      let a ← urlRead data (s.i + 1)
      let b ← urlRead data (s.i + 2)
      s.put (UInt8.ofInt (strtolHex [a, b])) (s.i + 3)
    else s.put c (s.i + 1)
  else if c = 43 then s.put 32 (s.i + 1)
  else s.put c (s.i + 1)

def urlDecodingLoop (data : Bytes) : ℕ → UrlState → Option UrlState
  | 0, s => if s.i < data.length then none else some s
  | fuel + 1, s =>
      if s.i < data.length then (urlDecodingStep data s).bind (urlDecodingLoop data fuel)
      else some s

structure UrlOutput where
  result : Bytes
  written : ℕ
  deriving DecidableEq

def urlDecoding (data : Bytes) : Option UrlOutput :=
  if data = [] then some ⟨[0], 1⟩
  else do
    let s ← urlDecodingLoop data data.length ⟨0, 0, List.replicate (data.length + 1) 0⟩
    let s' ← s.put 0 s.i
    return ⟨s'.result, s'.j⟩

/-- The texts that stand for a byte string: each byte as itself, as an escape or, for a space, as
`+`. -/
inductive UrlEncodes : Bytes → Bytes → Prop
  | nil : UrlEncodes [] []
  | plain {c : UInt8} {s e : Bytes} (hpercent : c ≠ 37) (hplus : c ≠ 43) (h : UrlEncodes s e) :
      UrlEncodes (c :: s) (c :: e)
  | escape {a b : UInt8} {x y : ℕ} {s e : Bytes} (ha : hexDigit a = some x)
      (hb : hexDigit b = some y) (h : UrlEncodes s e) :
      UrlEncodes (UInt8.ofNat (16 * x + y) :: s) (37 :: a :: b :: e)
  | space {s e : Bytes} (h : UrlEncodes s e) : UrlEncodes (32 :: s) (43 :: e)

theorem le_of_hexDigit {c : UInt8} {x : ℕ} (h : hexDigit c = some x) : 48 ≤ c.toNat := by
  have hlarge : 48 ≤ c := by
    unfold hexDigit at h
    split_ifs at h with h₁ h₂ h₃
    · exact h₁.1
    · exact UInt8.le_trans (by decide) h₂.1
    · exact UInt8.le_trans (by decide) h₃.1
  exact UInt8.le_iff_toNat_le.mp hlarge

/-- A digit is read as a digit: it ends no string, is no space and is no sign. -/
theorem hexDigit_plain {c : UInt8} {x : ℕ} (h : hexDigit c = some x) :
    c ≠ 0 ∧ isSpace c = false ∧ c ≠ 45 ∧ c ≠ 43 := by
  have hle := le_of_hexDigit h
  have hne : ∀ k : UInt8, k.toNat < 48 → c ≠ k := by
    rintro k hk rfl
    omega
  refine ⟨hne 0 (by decide), ?_, hne 45 (by decide), hne 43 (by decide)⟩
  have hnine : ¬ c ≤ 13 := by
    intro hc
    have := UInt8.le_iff_toNat_le.mp hc
    change c.toNat ≤ 13 at this
    omega
  simp [isSpace, hne 32 (by decide), hnine]

theorem strtolHex_digits {a b : UInt8} {x y : ℕ} (ha : hexDigit a = some x)
    (hb : hexDigit b = some y) : strtolHex [a, b] = ((16 * x + y : ℕ) : ℤ) := by
  obtain ⟨ha₀, hspace, hminus, hplus⟩ := hexDigit_plain ha
  have hcstr : cstr [a, b] = [a, b] := by
    rw [cstr_cons ha₀, cstr_cons (hexDigit_plain hb).1]
    rfl
  have hdrop : [a, b].dropWhile isSpace = [a, b] := by
    rw [List.dropWhile_cons_of_neg (by rw [hspace]; exact Bool.false_ne_true)]
  have hsign : splitSign [a, b] = (false, [a, b]) := by
    rw [splitSign, if_neg hminus, if_neg hplus]
  simp only [strtolHex, hcstr, hdrop, hsign, List.map_cons, List.map_nil, ha, hb]
  simp

def urlState (read done : Bytes) (room : ℕ) : UrlState :=
  ⟨read.length, done.length, done ++ List.replicate room 0⟩

section Inverse

variable {r d : Bytes} {room : ℕ}

theorem urlRead_append (r skipped e : Bytes) (c : UInt8) :
    urlRead (r ++ (skipped ++ c :: e)) (r.length + skipped.length) = some c := by
  rw [urlRead, List.append_assoc, List.getElem?_append_right (Nat.le_add_right _ _),
    Nat.add_sub_cancel_left, List.append_assoc, List.getElem?_append_right le_rfl, Nat.sub_self]
  rfl

theorem put_urlState (c : UInt8) (skipped : Bytes) :
    (urlState r d (room + 1)).put c (r.length + skipped.length) =
      some (urlState (r ++ skipped) (d ++ [c]) room) := by
  have hset : (d ++ List.replicate (room + 1) (0 : UInt8)).set d.length c =
      (d ++ [c]) ++ List.replicate room 0 := by
    rw [List.replicate_succ, List.set_append_right _ _ le_rfl, Nat.sub_self, List.set_cons_zero,
      List.append_assoc]
    rfl
  rw [UrlState.put, if_pos (by simp [urlState])]
  simp only [urlState, hset, List.length_append, List.length_singleton]

theorem urlDecodingStep_plain {c : UInt8} (hpercent : c ≠ 37) (hplus : c ≠ 43) (e : Bytes) :
    urlDecodingStep (r ++ c :: e) (urlState r d (room + 1)) =
      some (urlState (r ++ [c]) (d ++ [c]) room) := by
  have hread : urlRead (r ++ c :: e) (urlState r d (room + 1)).i = some c := urlRead_append r [] e c
  rw [urlDecodingStep, hread, Option.bind_eq_bind, Option.bind_some, if_neg hpercent,
    if_neg hplus]
  exact put_urlState c [c]

theorem urlDecodingStep_space (e : Bytes) :
    urlDecodingStep (r ++ 43 :: e) (urlState r d (room + 1)) =
      some (urlState (r ++ [43]) (d ++ [32]) room) := by
  have hread : urlRead (r ++ 43 :: e) (urlState r d (room + 1)).i = some 43 :=
    urlRead_append r [] e 43
  rw [urlDecodingStep, hread, Option.bind_eq_bind, Option.bind_some, if_neg (by decide), if_pos rfl]
  exact put_urlState 32 [43]

/-- The bound check lets an escape through that ends the string. -/
theorem urlDecodingStep_escape {a b : UInt8} {x y : ℕ} (ha : hexDigit a = some x)
    (hb : hexDigit b = some y) (e : Bytes) :
    urlDecodingStep (r ++ 37 :: a :: b :: e) (urlState r d (room + 1)) =
      some (urlState (r ++ [37, a, b]) (d ++ [UInt8.ofNat (16 * x + y)]) room) := by
  have hread : urlRead (r ++ 37 :: a :: b :: e) (urlState r d (room + 1)).i = some 37 :=
    urlRead_append r [] (a :: b :: e) 37
  have hreadA : urlRead (r ++ 37 :: a :: b :: e) ((urlState r d (room + 1)).i + 1) = some a :=
    urlRead_append r [37] (b :: e) a
  have hreadB : urlRead (r ++ 37 :: a :: b :: e) ((urlState r d (room + 1)).i + 2) = some b :=
    urlRead_append r [37, a] e b
  have hfits : (urlState r d (room + 1)).i + 2 < (r ++ 37 :: a :: b :: e).length := by
    simp only [urlState, List.length_append, List.length_cons]
    omega
  have hbyte : UInt8.ofInt (strtolHex [a, b]) = UInt8.ofNat (16 * x + y) := by
    rw [strtolHex_digits ha hb, ofInt_natCast]
  rw [urlDecodingStep, hread, Option.bind_eq_bind, Option.bind_some, if_pos rfl, if_pos hfits,
    hreadA, Option.bind_some, hreadB, Option.bind_some, hbyte]
  exact put_urlState _ [37, a, b]

theorem urlDecodingLoop_of_step {data : Bytes} {fuel : ℕ} {s s' : UrlState} (hi : s.i < data.length)
    (hstep : urlDecodingStep data s = some s') :
    urlDecodingLoop data (fuel + 1) s = urlDecodingLoop data fuel s' := by
  rw [urlDecodingLoop, if_pos hi, hstep, Option.bind_some]

theorem UrlEncodes.length_le {s e : Bytes} (h : UrlEncodes s e) : s.length ≤ e.length := by
  induction h with
  | nil => exact le_rfl
  | plain _ _ _ ih => exact Nat.succ_le_succ ih
  | escape _ _ _ ih =>
    simp only [List.length_cons]
    omega
  | space _ ih => exact Nat.succ_le_succ ih

/-- Behind what has been read the loop decodes `e` to `s`, one byte of `s` a turn. -/
def Decodes (s e : Bytes) : Prop :=
  ∀ (r d : Bytes) (room fuel : ℕ), s.length ≤ fuel →
    urlDecodingLoop (r ++ e) fuel (urlState r d (s.length + room)) =
      some (urlState (r ++ e) (d ++ s) room)

theorem Decodes.cons {c : UInt8} {s e taken : Bytes} (h : Decodes s e) (hne : taken ≠ [])
    (hstep : ∀ (r d : Bytes) (room : ℕ),
      urlDecodingStep (r ++ (taken ++ e)) (urlState r d (room + 1)) =
        some (urlState (r ++ taken) (d ++ [c]) room)) :
    Decodes (c :: s) (taken ++ e) := by
  intro r d room fuel hfuel
  obtain ⟨fuel, rfl⟩ : ∃ k, fuel = k + 1 :=
    ⟨fuel - 1, by simp only [List.length_cons] at hfuel; omega⟩
  have hi : (urlState r d (s.length + room + 1)).i < (r ++ (taken ++ e)).length := by
    have := List.length_pos_of_ne_nil hne
    simp only [urlState, List.length_append]
    omega
  rw [List.length_cons, Nat.add_right_comm, urlDecodingLoop_of_step hi (hstep r d _),
    ← List.append_assoc, h (r ++ taken) (d ++ [c]) room fuel (Nat.le_of_succ_le_succ hfuel),
    List.append_assoc d]
  rfl

theorem UrlEncodes.decodes {s e : Bytes} (h : UrlEncodes s e) : Decodes s e := by
  induction h with
  | nil =>
    intro r d room fuel _
    have hend : ¬ (urlState r d room).i < (r ++ []).length := by simp [urlState]
    simp only [List.length_nil, Nat.zero_add]
    cases fuel <;> rw [urlDecodingLoop, if_neg hend, List.append_nil, List.append_nil]
  | @plain c s e hpercent hplus _ ih =>
    exact ih.cons (List.cons_ne_nil c []) fun _ _ _ => urlDecodingStep_plain hpercent hplus e
  | @escape a b x y s e ha hb _ ih =>
    exact ih.cons (List.cons_ne_nil 37 [a, b]) fun _ _ _ => urlDecodingStep_escape ha hb e
  | @space s e _ ih => exact ih.cons (List.cons_ne_nil 43 []) fun _ _ _ => urlDecodingStep_space e

theorem urlDecoding_of_loop {data : Bytes} {s s' : UrlState} (hne : data ≠ [])
    (hloop : urlDecodingLoop data data.length (urlState [] [] (data.length + 1)) = some s)
    (hput : s.put 0 s.i = some s') : urlDecoding data = some ⟨s'.result, s'.j⟩ := by
  have hstart : urlDecodingLoop data data.length
      ⟨0, 0, List.replicate (data.length + 1) 0⟩ = some s := hloop
  rw [urlDecoding, if_neg hne, hstart, Option.bind_eq_bind, Option.bind_some, hput]
  rfl

theorem cstr_append_zero {s : Bytes} (h0 : (0 : UInt8) ∉ s) (rest : Bytes) :
    cstr ((s ++ [0]) ++ rest) = s := by
  induction s with
  | nil => exact cstr_of_head rfl
  | cons c s ih =>
    have hc : c ≠ 0 := fun h => h0 (h ▸ List.mem_cons_self)
    exact (cstr_cons hc _).trans (congrArg _ (ih fun h => h0 (List.mem_cons_of_mem c h)))

theorem urlDecoding_encodes {s e : Bytes} (h0 : 0 ∉ s) (h : UrlEncodes s e) :
    ∃ out, urlDecoding e = some out ∧ cstr out.result = s := by
  by_cases he : e = []
  · subst he
    cases h
    exact ⟨_, rfl, rfl⟩
  · have hlen := h.length_le
    have hroom : s.length + (e.length - s.length + 1) = e.length + 1 := by omega
    have hloop := h.decodes [] [] (e.length - s.length + 1) e.length hlen
    rw [hroom] at hloop
    exact ⟨_, urlDecoding_of_loop he hloop (put_urlState 0 []), cstr_append_zero h0 _⟩

end Inverse

section Bounds

variable {data : Bytes}

/-- What every turn of the loop keeps: no byte is written before it has been read, and the buffer
holds the whole string and its terminator. -/
structure UrlState.Within (data : Bytes) (s : UrlState) : Prop where
  written : s.j ≤ s.i
  read : s.i ≤ data.length
  room : s.result.length = data.length + 1

theorem UrlState.Within.put {s : UrlState} (h : s.Within data) (c : UInt8) {i : ℕ} (hi : s.i < i)
    (hle : i ≤ data.length) : ∃ s', s.put c i = some s' ∧ s'.Within data ∧ s'.i = i := by
  have hfits : s.j < s.result.length := by
    have := h.written
    have := h.room
    omega
  refine ⟨_, if_pos hfits, ⟨?_, hle, ?_⟩, rfl⟩
  · have := h.written
    change s.j + 1 ≤ i
    omega
  · rw [List.length_set]
    exact h.room

theorem urlRead_of_le {i : ℕ} (h : i ≤ data.length) : ∃ c, urlRead data i = some c := by
  have hlt : i < (data ++ [0]).length := by
    rw [List.length_append, List.length_singleton]
    omega
  exact ⟨_, List.getElem?_eq_getElem hlt⟩

theorem urlDecodingStep_within {s : UrlState} (h : s.Within data) (hi : s.i < data.length) :
    ∃ s', urlDecodingStep data s = some s' ∧ s'.Within data ∧ s.i < s'.i := by
  obtain ⟨c, hc⟩ := urlRead_of_le h.read
  rw [urlDecodingStep, hc, Option.bind_eq_bind, Option.bind_some]
  -- Every branch writes one byte; only a whole escape moves on by more than one.
  have hone : ∀ c, ∃ s', s.put c (s.i + 1) = some s' ∧ s'.Within data ∧ s.i < s'.i := by
    intro c
    obtain ⟨s', hput, hwithin, hnext⟩ := h.put c (Nat.lt_succ_self s.i) hi
    exact ⟨s', hput, hwithin, hnext ▸ Nat.lt_succ_self s.i⟩
  split_ifs with hpercent hroom hplus
  · obtain ⟨a, ha⟩ := urlRead_of_le (show s.i + 1 ≤ data.length from hi)
    obtain ⟨b, hb⟩ := urlRead_of_le hroom.le
    have hmove : s.i < s.i + 3 := Nat.lt_add_of_pos_right (by decide)
    obtain ⟨s', hput, hwithin, hnext⟩ := h.put (UInt8.ofInt (strtolHex [a, b])) hmove hroom
    rw [ha, Option.bind_some, hb, Option.bind_some]
    exact ⟨s', hput, hwithin, hnext ▸ hmove⟩
  · exact hone c
  · exact hone 32
  · exact hone c

theorem urlDecodingLoop_within (fuel : ℕ) :
    ∀ s : UrlState, s.Within data → data.length - s.i ≤ fuel →
      ∃ s', urlDecodingLoop data fuel s = some s' ∧ s'.Within data := by
  induction fuel with
  | zero =>
    intro s h hfuel
    exact ⟨s, if_neg (by omega), h⟩
  | succ fuel ih =>
    intro s h hfuel
    by_cases hi : s.i < data.length
    · obtain ⟨s₁, hstep, hwithin, hmove⟩ := urlDecodingStep_within h hi
      rw [urlDecodingLoop_of_step hi hstep]
      exact ih s₁ hwithin (by omega)
    · exact ⟨s, if_neg hi, h⟩

/-- The call ends within its buffers on every string, whatever stands behind its percent signs. -/
theorem urlDecoding_within (data : Bytes) :
    ∃ out, urlDecoding data = some out ∧ out.written ≤ data.length + 1 := by
  by_cases hne : data = []
  · subst hne
    exact ⟨_, rfl, le_rfl⟩
  · have hstart : (urlState [] [] (data.length + 1)).Within data :=
      ⟨le_rfl, Nat.zero_le _, List.length_replicate⟩
    obtain ⟨s, hloop, hwithin⟩ := urlDecodingLoop_within data.length _ hstart (Nat.sub_le _ _)
    have hj : s.j ≤ data.length := hwithin.written.trans hwithin.read
    have hput : s.put 0 s.i = some ⟨s.i, s.j + 1, s.result.set s.j 0⟩ :=
      if_pos (by rw [hwithin.room]; omega)
    exact ⟨_, urlDecoding_of_loop hne hloop hput, Nat.succ_le_succ hj⟩

end Bounds

/-- Decoding inverts every encoding of a string, and on any string it stays within its buffers. -/
theorem urlDecoding_inverts_and_bounded :
    (∀ s e : Bytes, 0 ∉ s → UrlEncodes s e →
      ∃ out, urlDecoding e = some out ∧ cstr out.result = s) ∧
    ∀ data : Bytes, ∃ out, urlDecoding data = some out ∧ out.written ≤ data.length + 1 :=
  ⟨fun _ _ h0 h => urlDecoding_encodes h0 h, urlDecoding_within⟩

/-- `a%2fb+%3A`, of which the last escape ends the string. -/
theorem urlDecoding_inverts_path :
    UrlEncodes [97, 47, 98, 32, 58] [97, 37, 50, 102, 98, 43, 37, 51, 65] ∧
    ∃ out, urlDecoding [97, 37, 50, 102, 98, 43, 37, 51, 65] = some out ∧
      cstr out.result = [97, 47, 98, 32, 58] := by
  have hencodes : UrlEncodes [97, 47, 98, 32, 58] [97, 37, 50, 102, 98, 43, 37, 51, 65] :=
    .plain (by decide) (by decide) (.escape (x := 2) (y := 15) rfl rfl (.plain (by decide)
      (by decide) (.space (.escape (x := 3) (y := 10) rfl rfl .nil))))
  exact ⟨hencodes, urlDecoding_inverts_and_bounded.1 _ _ (by decide) hencodes⟩

end NanoMQ
