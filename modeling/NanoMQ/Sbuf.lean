import NanoMQ.CString
import Mathlib.Algebra.Group.Nat.Defs

/-!
# String buffers

`sbuf_t` is a string that grows: `sbuf_ensure` doubles the capacity until there is room for a text
and its terminating zero, and copies what is there to the new memory. `sbuf_appendf` formats into an
array of 512 bytes first and, if that is too short, into memory of the length that `vsnprintf`
returned. A cell of memory is `none` until it is written; an access outside of the memory has no
result, and neither has a loop that does not end. `size_t` has 64 bits.
-/

namespace NanoMQ

open ByteBuffer

structure Sbuf where
  buf : List (Option UInt8)
  len : ℕ
  cap : ℕ

def wrap64 (n : ℕ) : ℕ := n % 18446744073709551616

def copyTo (mem : List (Option UInt8)) (pos : ℕ) (cells : List (Option UInt8)) :
    Option (List (Option UInt8)) :=
  if pos + cells.length ≤ mem.length then
    some (mem.take pos ++ cells ++ mem.drop (pos + cells.length))
  else none

def readFrom (mem : List (Option UInt8)) (n : ℕ) : Option (List (Option UInt8)) :=
  if n ≤ mem.length then some (mem.take n) else none

def sbufInit (cap : UInt64) : Option Sbuf := do
  let cap := if cap ≠ 0 then cap.toNat else 256
  let buf ← copyTo (List.replicate cap none) 0 [some 0]
  some ⟨buf, 0, cap⟩

/-- The loop that doubles the capacity. After 64 turns it is zero and stays so. -/
def doubleCap (need : ℕ) : ℕ → ℕ → Option ℕ
  | 0, _ => none
  | turns + 1, newcap =>
    if newcap < need then doubleCap need turns (wrap64 (newcap * 2)) else some newcap

def sbufEnsure (sb : Sbuf) (extra : ℕ) : Option Sbuf :=
  if wrap64 (sb.len + extra + 1) ≤ sb.cap then some sb
  else do
    let newcap ← doubleCap (wrap64 (sb.len + extra + 1)) 65 (wrap64 (sb.cap * 2))
    let cells ← readFrom sb.buf (wrap64 (sb.len + 1))
    let nbuf ← copyTo (List.replicate newcap none) 0 cells
    some ⟨nbuf, sb.len, newcap⟩

/-- `sbuf_append`; `s` is read up to its first zero byte. -/
def sbufAppend (sb : Sbuf) (s : Bytes) : Option Sbuf := do
  let n := strlen s
  let sb ← sbufEnsure sb n
  let buf ← copyTo sb.buf sb.len ((cstr s ++ [0]).map some)
  some ⟨buf, wrap64 (sb.len + n), sb.cap⟩

/-- `sbuf_appendf`, for the text that its arguments make. The addition `n + 1` is one of `int`. -/
def sbufAppendf (pf : Printf) (sb : Sbuf) (text : Bytes) : Option Sbuf :=
  let n := (pf.result text).toInt
  if n ≤ 0 then some sb
  else if 512 ≤ n then
    if n + 1 < 2147483648 then sbufAppend sb (printed (n + 1).toNat text) else none
  else sbufAppend sb (printed 512 text)

inductive SbufOp
  | append (s : Bytes)
  | appendf (text : Bytes)

def SbufOp.text : SbufOp → Bytes
  | .append s => cstr s
  | .appendf text => text

def sbufStep (pf : Printf) (sb : Sbuf) : SbufOp → Option Sbuf
  | .append s => sbufAppend sb s
  | .appendf text => sbufAppendf pf sb text

def sbufRun (pf : Printf) (cap : UInt64) (ops : List SbufOp) : Option Sbuf :=
  (sbufInit cap).bind (fun sb => ops.foldlM (sbufStep pf) sb)

/-- The buffer holds a text with its terminating zero, inside the memory. -/
structure SbufHolds (sb : Sbuf) (content : Bytes) : Prop where
  alloc : sb.buf.length = sb.cap
  cap_lt : sb.cap < 18446744073709551616
  len : sb.len = content.length
  room : sb.len + 1 ≤ sb.cap
  text : sb.buf.take (sb.len + 1) = (content ++ [0]).map some

theorem exists_copyTo {mem cells : List (Option UInt8)} {pos : ℕ}
    (h : pos + cells.length ≤ mem.length) :
    ∃ mem', copyTo mem pos cells = some mem' ∧ mem'.length = mem.length ∧
      mem'.take (pos + cells.length) = mem.take pos ++ cells := by
  refine ⟨_, if_pos h, ?_, ?_⟩
  · simp only [List.length_append, List.length_take, List.length_drop]
    omega
  · apply List.take_left'
    rw [List.length_append, List.length_take]
    omega

/-- The loop ends for every length that has room in half of the numbers of `size_t`. -/
theorem exists_doubleCap {need : ℕ} (hneed : need ≤ 4611686018427387904) (turns newcap : ℕ)
    (hpos : 0 < newcap) (hcap : newcap < 18446744073709551616)
    (hturns : 4611686018427387904 < newcap * 2 ^ turns) :
    ∃ c, doubleCap need (turns + 1) newcap = some c ∧ need ≤ c ∧ c < 18446744073709551616 := by
  induction turns generalizing newcap with
  | zero =>
    rw [doubleCap, if_neg (by omega)]
    exact ⟨newcap, rfl, by omega, hcap⟩
  | succ turns ih =>
    rw [doubleCap]
    split_ifs with hsmall
    · have hwrap : wrap64 (newcap * 2) = newcap * 2 := Nat.mod_eq_of_lt (by omega)
      rw [hwrap]
      refine ih (newcap * 2) (by omega) (by omega) ?_
      rwa [Nat.mul_assoc, ← Nat.pow_succ']
    · exact ⟨newcap, rfl, by omega, hcap⟩

theorem exists_sbufInit (cap : UInt64) : ∃ sb, sbufInit cap = some sb ∧ SbufHolds sb [] := by
  obtain ⟨c, hc, hpos, hlt⟩ : ∃ c, (if cap ≠ 0 then cap.toNat else 256) = c ∧ 0 < c ∧
      c < 18446744073709551616 := by
    refine ⟨_, rfl, ?_, ?_⟩
    · split_ifs with hcap
      · exact Nat.pos_of_ne_zero (fun h => hcap (UInt64.toNat_inj.mp h))
      · decide
    · split_ifs
      · exact cap.toNat_lt
      · decide
  have hroom : 0 + [some (0 : UInt8)].length ≤ (List.replicate c (none : Option UInt8)).length := by
    rw [List.length_replicate]
    exact hpos
  obtain ⟨buf, hbuf, hlen, htext⟩ := exists_copyTo hroom
  refine ⟨⟨buf, 0, c⟩, ?_, ?_⟩
  · rw [sbufInit, hc, hbuf]
    rfl
  · exact ⟨hlen.trans List.length_replicate, hlt, rfl, hpos, htext⟩

theorem SbufHolds.exists_sbufEnsure {sb : Sbuf} {content : Bytes} (h : SbufHolds sb content)
    {extra : ℕ} (hextra : content.length + extra < 4611686018427387904) :
    ∃ sb', sbufEnsure sb extra = some sb' ∧ SbufHolds sb' content ∧
      content.length + extra + 1 ≤ sb'.cap := by
  have hlen := h.len
  have hroom := h.room
  have hneed : wrap64 (sb.len + extra + 1) = sb.len + extra + 1 := Nat.mod_eq_of_lt (by omega)
  have hread : wrap64 (sb.len + 1) = sb.len + 1 := Nat.mod_eq_of_lt (by omega)
  unfold sbufEnsure
  rw [hneed, hread]
  split_ifs with hfits
  · exact ⟨sb, rfl, h, by omega⟩
  · have hdouble : wrap64 (sb.cap * 2) = sb.cap * 2 := Nat.mod_eq_of_lt (by omega)
    obtain ⟨c, hc, hle, hlt⟩ : ∃ c, doubleCap (sb.len + extra + 1) 65 (sb.cap * 2) = some c ∧
        sb.len + extra + 1 ≤ c ∧ c < 18446744073709551616 :=
      exists_doubleCap (by omega) 64 (sb.cap * 2) (by omega) (by omega) (by omega)
    have hcells : (sb.buf.take (sb.len + 1)).length = sb.len + 1 := by
      rw [List.length_take, h.alloc]
      omega
    have hnew : 0 + (sb.buf.take (sb.len + 1)).length ≤
        (List.replicate c (none : Option UInt8)).length := by
      rw [hcells, List.length_replicate]
      omega
    obtain ⟨nbuf, hnbuf, hnlen, hntext⟩ := exists_copyTo hnew
    rw [hcells, Nat.zero_add, List.take_zero, List.nil_append, h.text] at hntext
    refine ⟨⟨nbuf, sb.len, c⟩, ?_, ⟨?_, hlt, hlen, ?_, hntext⟩, ?_⟩
    · rw [hdouble, hc, readFrom, h.alloc, if_pos hroom]
      change (copyTo _ 0 (sb.buf.take (sb.len + 1))).bind _ = _
      rw [hnbuf]
      rfl
    · exact hnlen.trans List.length_replicate
    · change sb.len + 1 ≤ c
      omega
    · exact hlen ▸ hle

theorem SbufHolds.exists_sbufAppend {sb : Sbuf} {content : Bytes} (h : SbufHolds sb content)
    (s : Bytes) (hs : content.length + (cstr s).length < 4611686018427387904) :
    ∃ sb', sbufAppend sb s = some sb' ∧ SbufHolds sb' (content ++ cstr s) := by
  obtain ⟨sb₁, hens, h₁, hcap⟩ := h.exists_sbufEnsure hs
  have hlen := h₁.len
  have hcells : ((cstr s ++ [0]).map some).length = (cstr s).length + 1 := by
    rw [List.length_map, List.length_append, List.length_singleton]
  have hroom : sb₁.len + ((cstr s ++ [0]).map some).length ≤ sb₁.buf.length := by
    rw [hcells, h₁.alloc, hlen]
    omega
  obtain ⟨buf, hbuf, hblen, htext⟩ := exists_copyTo hroom
  have hwrap : wrap64 (sb₁.len + strlen s) = sb₁.len + (cstr s).length :=
    Nat.mod_eq_of_lt (by rw [strlen]; omega)
  -- the old terminating zero is overwritten by the first byte of the new text
  have hold : sb₁.buf.take sb₁.len = content.map some := by
    have hpre := congrArg (List.take sb₁.len) h₁.text
    rwa [List.take_take, Nat.min_eq_left (Nat.le_succ _), List.map_append,
      List.take_left' (by rw [List.length_map, hlen])] at hpre
  refine ⟨⟨buf, sb₁.len + (cstr s).length, sb₁.cap⟩, ?_, hblen.trans h₁.alloc, h₁.cap_lt, ?_, ?_,
    ?_⟩
  · rw [← hwrap, sbufAppend, strlen, hens]
    change (copyTo sb₁.buf sb₁.len _).bind _ = _
    rw [hbuf]
    rfl
  · rw [List.length_append, ← hlen]
  · rw [hlen]
    exact hcap
  · rw [hcells, hold, ← List.map_append, ← List.append_assoc] at htext
    exact htext

/-- A formatted text is appended as a whole when it has no zero byte, and when its length and its
terminating zero can be counted by an `int`. -/
def SbufOp.Fits : SbufOp → Prop
  | .append _ => True
  | .appendf text => 0 ∉ text ∧ text.length < 2147483647

/-- A call whose text fits appends the text; any other call appends less, or fails. -/
structure SbufAppends (fits : Prop) (result : Option Sbuf) (content text : Bytes) : Prop where
  whole : fits → ∃ sb, result = some sb ∧ SbufHolds sb (content ++ text)
  less : ¬ fits → ∀ sb, result = some sb →
    ∃ part : Bytes, part.length < text.length ∧ SbufHolds sb (content ++ part)

theorem SbufAppends.exists_part {fits : Prop} {result : Option Sbuf} {content text : Bytes}
    (h : SbufAppends fits result content text) {sb : Sbuf} (hsb : result = some sb) :
    ∃ part : Bytes, part.length ≤ text.length ∧ SbufHolds sb (content ++ part) := by
  by_cases hfits : fits
  · obtain ⟨sb', hsb', hholds⟩ := h.whole hfits
    obtain rfl : sb' = sb := Option.some.inj (hsb'.symm.trans hsb)
    exact ⟨text, le_rfl, hholds⟩
  · obtain ⟨part, hpart, hholds⟩ := h.less hfits sb hsb
    exact ⟨part, hpart.le, hholds⟩

theorem sbufAppendf_eq_append (pf : Printf) (sb : Sbuf) {text : Bytes} (hne : text ≠ [])
    (hlen : text.length < 2147483647) : sbufAppendf pf sb text = sbufAppend sb text := by
  have hn := pf.exact text (by omega)
  have hpos := List.length_pos_iff.mpr hne
  unfold sbufAppendf printed
  rw [hn]
  dsimp only
  rw [if_neg (by omega)]
  split_ifs with hlong hint
  · rw [List.take_of_length_le (by omega)]
  · omega
  · rw [List.take_of_length_le (by omega)]

theorem sbufAppendf_nil (pf : Printf) (sb : Sbuf) : sbufAppendf pf sb [] = some sb := by
  have hn := pf.exact [] (by decide)
  exact if_pos (le_of_eq hn)

/-- The longest text that `vsnprintf` can count has no room for its terminating zero in an `int`. -/
theorem sbufAppendf_intMax (pf : Printf) (sb : Sbuf) {text : Bytes}
    (hlen : text.length = 2147483647) : sbufAppendf pf sb text = none := by
  have hn := pf.exact text (by omega)
  unfold sbufAppendf
  rw [hn, hlen]
  rfl

theorem sbufAppendf_error (pf : Printf) (sb : Sbuf) {text : Bytes}
    (hlen : 2147483648 ≤ text.length) : sbufAppendf pf sb text = some sb :=
  if_pos (le_of_lt (pf.error text hlen))

theorem SbufHolds.appends_sbufAppendf {sb : Sbuf} {content : Bytes} (h : SbufHolds sb content)
    (pf : Printf) (text : Bytes) (hroom : content.length + text.length < 4611686018427387904) :
    SbufAppends (SbufOp.appendf text).Fits (sbufAppendf pf sb text) content text := by
  have hcstr := length_cstr_le text
  rcases Nat.lt_trichotomy text.length 2147483647 with hlt | heq | hgt
  · cases text with
    | nil =>
      rw [sbufAppendf_nil]
      refine ⟨fun _ => ⟨sb, rfl, ?_⟩, fun hnot => absurd ⟨List.not_mem_nil, hlt⟩ hnot⟩
      rwa [List.append_nil]
    | cons c s =>
      obtain ⟨sb', hsb, hholds⟩ := h.exists_sbufAppend (c :: s) (by omega)
      rw [sbufAppendf_eq_append pf sb (List.cons_ne_nil c s) hlt, hsb]
      constructor
      · rintro ⟨hzero, -⟩
        rw [cstr_of_not_mem hzero] at hholds
        exact ⟨sb', rfl, hholds⟩
      · intro hnot sb₁ hsb₁
        obtain rfl : sb' = sb₁ := Option.some.inj hsb₁
        have hzero : 0 ∈ c :: s := by
          by_contra hzero
          exact hnot ⟨hzero, hlt⟩
        exact ⟨cstr (c :: s), length_cstr_lt hzero, hholds⟩
  · rw [sbufAppendf_intMax pf sb heq]
    refine ⟨fun hfits => absurd hfits.2 (by omega), fun _ _ hnone => ?_⟩
    cases hnone
  · rw [sbufAppendf_error pf sb hgt]
    refine ⟨fun hfits => absurd hfits.2 (by omega), fun _ sb₁ hsb₁ => ?_⟩
    obtain rfl : sb = sb₁ := Option.some.inj hsb₁
    refine ⟨[], by rw [List.length_nil]; omega, ?_⟩
    rwa [List.append_nil]

theorem SbufHolds.appends_sbufStep {sb : Sbuf} {content : Bytes} (h : SbufHolds sb content)
    (pf : Printf) (op : SbufOp) (hroom : content.length + op.text.length < 4611686018427387904) :
    SbufAppends op.Fits (sbufStep pf sb op) content op.text := by
  cases op with
  | append s => exact ⟨fun _ => h.exists_sbufAppend s hroom, fun hnot => absurd trivial hnot⟩
  | appendf text => exact h.appends_sbufAppendf pf text hroom

def sbufTexts (ops : List SbufOp) : Bytes := ops.flatMap SbufOp.text

/-- The induction is on the calls, over every text that is in the buffer before them: a call that
appends less leaves the rest of the run with more room. -/
theorem SbufHolds.appends_foldlM {sb : Sbuf} {content : Bytes} (h : SbufHolds sb content)
    (pf : Printf) (ops : List SbufOp)
    (hroom : content.length + (sbufTexts ops).length < 4611686018427387904) :
    SbufAppends (∀ op ∈ ops, op.Fits) (ops.foldlM (sbufStep pf) sb) content
      (sbufTexts ops) := by
  induction ops generalizing sb content with
  | nil =>
    refine ⟨fun _ => ⟨sb, rfl, ?_⟩, fun hnot => absurd (List.forall_mem_nil _) hnot⟩
    rwa [sbufTexts, List.flatMap_nil, List.append_nil]
  | cons op ops ih =>
    have htexts : sbufTexts (op :: ops) = op.text ++ sbufTexts ops := List.flatMap_cons
    rw [htexts, List.length_append] at hroom
    have hstep := h.appends_sbufStep pf op (by omega)
    rw [htexts, List.foldlM_cons, List.forall_mem_cons]
    by_cases hop : op.Fits
    · obtain ⟨sb₁, hsb₁, h₁⟩ := hstep.whole hop
      have hrest := ih h₁ (by rw [List.length_append]; omega)
      rw [hsb₁]
      constructor
      · rintro ⟨-, hops⟩
        rw [← List.append_assoc]
        exact hrest.whole hops
      · intro hnot sb' hsb'
        obtain ⟨part, hpart, hholds⟩ := hrest.less (fun hops => hnot ⟨hop, hops⟩) sb' hsb'
        refine ⟨op.text ++ part, ?_, ?_⟩
        · rw [List.length_append, List.length_append]
          omega
        · rwa [← List.append_assoc]
    · refine ⟨fun hfits => absurd hfits.1 hop, fun _ sb' hsb' => ?_⟩
      obtain ⟨sb₁, hsb₁, hfold⟩ := Option.bind_eq_some_iff.mp hsb'
      obtain ⟨part₁, hpart₁, h₁⟩ := hstep.less hop sb₁ hsb₁
      obtain ⟨part₂, hpart₂, h₂⟩ := (ih h₁ (by rw [List.length_append]; omega)).exists_part hfold
      refine ⟨part₁ ++ part₂, ?_, ?_⟩
      · rw [List.length_append, List.length_append]
        omega
      · rwa [← List.append_assoc]

/-- The calls on a new buffer leave the texts of all of them exactly when every text fits. -/
theorem sbufRun_holds_iff (pf : Printf) (cap : UInt64) (ops : List SbufOp)
    (hroom : (sbufTexts ops).length < 2 ^ 62) :
    (∃ sb, sbufRun pf cap ops = some sb ∧ SbufHolds sb (sbufTexts ops)) ↔
      ∀ op ∈ ops, op.Fits := by
  obtain ⟨sb₀, hinit, h₀⟩ := exists_sbufInit cap
  have hrun := h₀.appends_foldlM pf ops (by rw [List.length_nil, Nat.zero_add]; exact hroom)
  rw [sbufRun, hinit, Option.bind_some]
  constructor
  · rintro ⟨sb, hsb, hholds⟩
    by_contra hnot
    obtain ⟨part, hpart, hless⟩ := hrun.less hnot sb hsb
    have hlen := hholds.len.symm.trans hless.len
    rw [List.nil_append] at hlen
    omega
  · intro hfits
    exact hrun.whole hfits

def shortAndLong : List SbufOp := [.append [65, 66], .appendf (List.replicate 600 67)]

theorem sbufRun_holds_iff_shortAndLong :
    (sbufTexts shortAndLong).length < 2 ^ 62 ∧
      ∃ sb, sbufRun Printf.posix 0 shortAndLong = some sb ∧
        SbufHolds sb (sbufTexts shortAndLong) := by
  have hroom : (sbufTexts shortAndLong).length < 2 ^ 62 := by
    rw [sbufTexts, shortAndLong, List.flatMap_cons, List.flatMap_cons, List.flatMap_nil,
      List.append_nil, List.length_append, SbufOp.text, SbufOp.text, List.length_replicate]
    decide
  refine ⟨hroom, (sbufRun_holds_iff Printf.posix 0 shortAndLong hroom).mpr ?_⟩
  intro op hop
  rcases List.mem_pair.mp hop with rfl | rfl
  · trivial
  · refine ⟨fun hmem => ?_, ?_⟩
    · exact absurd (List.eq_of_mem_replicate hmem) (by decide)
    · rw [List.length_replicate]
      decide

/-- A text of `2 ^ 31` bytes is dropped without a trace. -/
theorem sbufRun_drops_longText :
    sbufRun Printf.posix 0 [.appendf (List.replicate 2147483648 65)] = sbufInit 0 ∧
      (sbufTexts [.appendf (List.replicate 2147483648 65)]).length < 2 ^ 62 ∧
      ¬ ∃ sb, sbufRun Printf.posix 0 [.appendf (List.replicate 2147483648 65)] = some sb ∧
        SbufHolds sb (sbufTexts [.appendf (List.replicate 2147483648 65)]) := by
  obtain ⟨text, htext⟩ : ∃ text : Bytes, text = List.replicate 2147483648 65 := ⟨_, rfl⟩
  have hlen : text.length = 2147483648 := by rw [htext, List.length_replicate]
  have htexts : sbufTexts [.appendf text] = text := List.append_nil text
  obtain ⟨sb₀, hinit, h₀⟩ := exists_sbufInit 0
  have hrun : sbufRun Printf.posix 0 [.appendf text] = some sb₀ := by
    rw [sbufRun, hinit, Option.bind_some, List.foldlM_cons, sbufStep,
      sbufAppendf_error Printf.posix sb₀ (le_of_eq hlen.symm)]
    rfl
  rw [← htext, hrun, hinit, htexts]
  refine ⟨rfl, by rw [hlen]; decide, ?_⟩
  rintro ⟨sb, hsb, hholds⟩
  obtain rfl : sb₀ = sb := Option.some.inj hsb
  have heq := hholds.len.symm.trans h₀.len
  rw [hlen] at heq
  exact absurd heq (by decide)

end NanoMQ
