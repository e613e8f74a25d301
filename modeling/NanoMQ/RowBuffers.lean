import NanoMQ.RuleOverrun
import NanoMQ.Sbuf

/-!
# A row in string buffers

`rule_engine_insert_sqlite` as it works on memory: a round of `compose_sql_clause_new` formats its
columns and values into buffers of its own and appends these, as C strings, to the two lists; the
round of the payload fields collects ALTER TABLE statements in a third one, which are executed if
there are any. The statement is put together in a fourth buffer. As long as the lists and the ALTER
TABLE statements are shorter than an `int` can say, both statements are those of `composeRow`.
-/

namespace NanoMQ

open ByteBuffer

/-- The C string in memory, `none` where it runs into bytes that were never written. -/
def readString : List (Option UInt8) → Option Bytes
  | [] | none :: _ => none
  | some c :: cells => if c = 0 then some [] else (readString cells).map (c :: ·)

/-- The capacity of the buffer for a value; a quoted text is counted without its quotes. -/
def valueCap (text : Bytes) : RuleField → ℕ
  | .qos => 8
  | .id => 16
  | .topic | .clientid | .payloadAll => text.length - 2 + 8
  | .username | .password => 256
  | .timestamp => 32

section Buffers

variable (pf : Printf) (cj : Cjson) (db : Sqlite) (time : ℕ) (w : Work) (info : Rule)

def appendOwn (cap : ℕ) (text : Bytes) (sb : Sbuf) : Option Sbuf := do
  let own ← sbufInit (UInt64.ofNat cap)
  let own ← sbufAppendf pf own text
  let s ← readString own.buf
  sbufAppend sb s

def composeBuffers (lists : Sbuf × Sbuf) (j : RuleField) : Option (Sbuf × Sbuf) :=
  if info.flag j then do
    let _ ← sbufInit 512
    let text ← fieldText time w info j
    let key ← appendOwn pf (strlen (info.column j) + 8) (info.column j ++ ascii ", ") lists.1
    let value ← appendOwn pf (valueCap text j) (text ++ ascii ", ") lists.2
    some (key, value)
  else some lists

def startBuffers (table : Bytes) : Option (Sbuf × Sbuf) := do
  let key ← sbufInit 256
  let value ← sbufInit 512
  let key ← sbufAppendf pf key (table ++ ascii " (")
  let value ← sbufAppend value (ascii "VALUES (")
  some (key, value)

/-- `key_sb`, `val_sb` and `alter_sb` of the round of the payload fields, and the calls so far. -/
structure OwnBuffers where
  key : Sbuf
  value : Sbuf
  alter : Sbuf
  calls : List DbCall

def alterBuffer (isNeedSet : Bool) (alter : Sbuf) (calls : List DbCall) (pas : Bytes)
    (value : Option PayloadValue) : Option (Sbuf × List DbCall) :=
  match isNeedSet, info.tableName with
  | true, some table =>
    let (calls, found) := columnExists db calls table pas
    if found then some (alter, calls)
    else (sbufAppendf pf alter (alterText table pas value)).map (·, calls)
  | _, _ => some (alter, calls)

def storeBuffers (isNeedSet : Bool) (own : OwnBuffers) (p : RulePayload) : Option OwnBuffers :=
  match p.stored with
  | none => some own
  | some pas => do
    let key ← sbufAppendf pf own.key (pas ++ ascii ", ")
    let (alter, calls) ← alterBuffer pf db info isNeedSet own.alter own.calls pas p.value
    let value ← sbufAppendf pf own.value (payloadText cj p.value ++ ascii ", ")
    some ⟨key, value, alter, calls⟩

/-- The last round, with the execution of what it returns. -/
def payloadBuffers (index : ℕ) (isNeedSet : Bool) (calls : List DbCall) (lists : Sbuf × Sbuf) :
    Option ((Sbuf × Sbuf) × List DbCall) :=
  if info.payloadFlag then do
    let alter ← sbufInit 512
    let data ← w.packet.payloadData
    let key ← sbufInit 512
    let value ← sbufInit (UInt64.ofNat (strlen data * 2))
    let own ← info.payload.foldlM (storeBuffers pf cj db info isNeedSet) ⟨key, value, alter, calls⟩
    let columns ← readString own.key.buf
    let values ← readString own.value.buf
    let key ← sbufAppend lists.1 columns
    let value ← sbufAppend lists.2 values
    if own.alter.len = 0 then some ((key, value), own.calls)
    else do
      let ret ← readString own.alter.buf
      some ((key, value), own.calls ++ [.alter index ret])
  else some (lists, calls)

def statementBuffers (lists : Sbuf × Sbuf) : Option (Option Bytes) := do
  let clause ← sbufInit 1024
  let clause ← sbufAppendf pf clause (ascii "INSERT INTO ")
  let key ← readString lists.1.buf
  let value ← readString lists.2.buf
  match setLast 44 41 key, setLast 44 41 value with
  | some key, some value => do
    let clause ← sbufAppend clause key
    let clause ← sbufAppend clause value
    let clause ← sbufAppend clause (ascii ";")
    let sql ← readString clause.buf
    some (some sql)
  | _, _ => some none

/-- `rule_engine_insert_sqlite` up to the execution of the statement, and the calls before it. -/
def insertBuffers (index : ℕ) (isNeedSet : Bool) (calls : List DbCall) (table : Bytes) :
    Option (Option Bytes × List DbCall) := do
  let lists ← startBuffers pf table
  let lists ← RuleField.all.foldlM (composeBuffers pf time w info) lists
  let (lists, calls) ← payloadBuffers pf cj db w info index isNeedSet calls lists
  let sql ← statementBuffers pf lists
  some (sql, calls)

end Buffers

theorem readString_map {content : Bytes} (h : 0 ∉ content) (rest : List (Option UInt8)) :
    readString ((content ++ [0]).map some ++ rest) = some content := by
  induction content with
  | nil => rfl
  | cons c content ih =>
    rw [List.mem_cons, not_or] at h
    change (if c = 0 then some [] else
      (readString ((content ++ [0]).map some ++ rest)).map (c :: ·)) = _
    rw [if_neg (Ne.symm h.1), ih h.2]
    rfl

structure SbufText (sb : Sbuf) (content : Bytes) : Prop where
  holds : SbufHolds sb content
  zero : 0 ∉ content

namespace SbufText

variable {sb : Sbuf} {content text : Bytes}

theorem exists_init (cap : UInt64) : ∃ sb, sbufInit cap = some sb ∧ SbufText sb [] := by
  obtain ⟨sb, hsb, hholds⟩ := exists_sbufInit cap
  exact ⟨sb, hsb, hholds, List.not_mem_nil⟩

theorem readString_buf (h : SbufText sb content) : readString sb.buf = some content := by
  rw [← List.take_append_drop (sb.len + 1) sb.buf, h.holds.text]
  exact readString_map h.zero _

theorem exists_append (h : SbufText sb content) (hzero : 0 ∉ text)
    (hlen : (content ++ text).length < 4611686018427387904) :
    ∃ sb', sbufAppend sb text = some sb' ∧ SbufText sb' (content ++ text) := by
  rw [List.length_append] at hlen
  obtain ⟨sb', hsb', hholds⟩ := h.holds.exists_sbufAppend text (by rwa [cstr_of_not_mem hzero])
  rw [cstr_of_not_mem hzero] at hholds
  exact ⟨sb', hsb', hholds, List.not_mem_append h.zero hzero⟩

theorem exists_appendf (h : SbufText sb content) (pf : Printf) (hzero : 0 ∉ text)
    (hlen : (content ++ text).length < 2147483647) :
    ∃ sb', sbufAppendf pf sb text = some sb' ∧ SbufText sb' (content ++ text) := by
  rw [List.length_append] at hlen
  have hfits : (SbufOp.appendf text).Fits := ⟨hzero, by omega⟩
  obtain ⟨sb', hsb', hholds⟩ := (h.holds.appends_sbufAppendf pf text (by omega)).whole hfits
  exact ⟨sb', hsb', hholds, List.not_mem_append h.zero hzero⟩

theorem exists_appendOwn (h : SbufText sb content) (pf : Printf) (cap : ℕ) (hzero : 0 ∉ text)
    (hlen : (content ++ text).length < 2147483647) :
    ∃ sb', appendOwn pf cap text sb = some sb' ∧ SbufText sb' (content ++ text) := by
  have htext : ([] ++ text).length < 2147483647 := by
    rw [List.length_append] at hlen
    exact lt_of_le_of_lt (Nat.le_add_left ..) hlen
  obtain ⟨own₀, hinit, hown₀⟩ := exists_init (UInt64.ofNat cap)
  obtain ⟨own, happ, hown⟩ := hown₀.exists_appendf pf hzero htext
  obtain ⟨sb', hsb', hholds⟩ := h.exists_append hzero (by omega)
  refine ⟨sb', ?_, hholds⟩
  simp only [appendOwn, hinit, happ, hown.readString_buf, List.nil_append, hsb',
    Option.bind_eq_bind, Option.bind_some]

end SbufText

section Values

theorem zero_not_mem_quoted (s : Bytes) : 0 ∉ quoted s := by
  have hescape : 0 ∉ sqlEscape s := by
    intro hmem
    obtain ⟨c, hc, hzero⟩ := List.mem_flatMap.mp hmem
    have hne : (0 : UInt8) ≠ c := fun heq => not_mem_cstr s (heq ▸ hc)
    split_ifs at hzero <;> simp [hne] at hzero
  have hquote : (0 : UInt8) ∉ ascii "'" := by decide
  exact List.not_mem_append (List.not_mem_append hquote hescape) hquote

theorem zero_not_mem_decimal (n : ℤ) : 0 ∉ decimal n := by
  rw [decimal_eq]
  intro hmem
  rcases List.mem_append.mp hmem with hmem | hmem
  · split_ifs at hmem
    · exact absurd (List.mem_singleton.mp hmem) (by decide)
    · exact List.not_mem_nil hmem
  · exact absurd ((ascii_repr_digits n.natAbs).2 0 hmem).1 (by decide)

theorem zero_not_mem_fieldText {time : ℕ} {w : Work} {info : Rule} {j : RuleField} {text : Bytes}
    (h : fieldText time w info j = some text) : 0 ∉ text := by
  have hmap {s : Option Bytes} (h : s.map quoted = some text) : 0 ∉ text := by
    obtain ⟨s, -, rfl⟩ := Option.map_eq_some_iff.mp h
    exact zero_not_mem_quoted s
  have helim (s : Option Bytes) : 0 ∉ s.elim (ascii "NULL") quoted := by
    cases s with
    | none => exact (by decide : 0 ∉ ascii "NULL")
    | some s => exact zero_not_mem_quoted s
  cases j with
  | qos | id =>
    obtain rfl := Option.some.inj h
    exact zero_not_mem_decimal _
  | topic | clientid | payloadAll => exact hmap h
  | username | password =>
    obtain rfl := Option.some.inj h
    exact helim _
  | timestamp =>
    simp only [fieldText] at h
    split at h
    · obtain rfl := Option.some.inj h
      exact List.not_mem_append
        (List.not_mem_append (by decide) (zero_not_mem_decimal _)) (by decide)
    · obtain rfl := Option.some.inj h
      exact zero_not_mem_decimal _

theorem zero_not_mem_payloadText (cj : Cjson) (v : Option PayloadValue) : 0 ∉ payloadText cj v := by
  rcases v with _ | n | s | v
  · exact (by decide : 0 ∉ ascii "NULL")
  · exact zero_not_mem_decimal n
  · exact zero_not_mem_quoted s
  · exact zero_not_mem_quoted (cj.printUnformatted v)

theorem zero_not_mem_setLast {s s' : Bytes} (h : setLast 44 41 s = some s') (hs : 0 ∉ s) :
    0 ∉ s' := by
  induction s generalizing s' with
  | nil => cases h
  | cons x s ih =>
    rw [List.mem_cons, not_or] at hs
    rw [setLast] at h
    cases hrest : setLast 44 41 s with
    | some r =>
      rw [hrest] at h
      obtain rfl := Option.some.inj h
      exact List.not_mem_cons_of_ne_of_not_mem hs.1 (ih hrest hs.2)
    | none =>
      rw [hrest] at h
      dsimp only at h
      split_ifs at h
      obtain rfl := Option.some.inj h
      exact List.not_mem_cons_of_ne_of_not_mem (by decide) hs.2

theorem zero_not_mem_comma {text : Bytes} (h : 0 ∉ text) : 0 ∉ text ++ ascii ", " :=
  List.not_mem_append h (by decide)

end Values

structure ListsHold (lists : Sbuf × Sbuf) (t : SqlText) : Prop where
  key : SbufText lists.1 t.key
  value : SbufText lists.2 t.value

def SqlText.Short (t : SqlText) : Prop :=
  t.key.length < 2147483647 ∧ t.value.length < 2147483647

structure OwnHolds (own : OwnBuffers) (c : Composed) : Prop where
  key : SbufText own.key c.text.key
  value : SbufText own.value c.text.value
  alter : SbufText own.alter c.alter
  calls : own.calls = c.calls

structure Composed.Short (c : Composed) : Prop where
  text : c.text.Short
  alter : c.alter.length < 2147483647

structure CNames (info : Rule) (table : Bytes) : Prop where
  table : 0 ∉ table
  column : ∀ j, 0 ∉ info.column j
  pas : ∀ p ∈ info.payload, ∀ pas ∈ p.stored, 0 ∉ pas

section Follows

variable {σ τ : Type} {Hold : σ → τ → Prop} {Short : τ → Prop} {f g : σ → Option σ} {t t' t'' : τ}

/-- A step that takes buffers with the first text to buffers with the second. -/
structure Follows (Hold : σ → τ → Prop) (Short : τ → Prop) (f : σ → Option σ) (t t' : τ) :
    Prop where
  short : Short t' → Short t
  exists_buffers : Short t' → ∀ s, Hold s t → ∃ s', f s = some s' ∧ Hold s' t'

namespace Follows

theorem refl (t : τ) : Follows Hold Short some t t :=
  ⟨id, fun _ s h => ⟨s, rfl, h⟩⟩

theorem trans (hf : Follows Hold Short f t t') (hg : Follows Hold Short g t' t'') :
    Follows Hold Short (fun s => (f s).bind g) t t'' where
  short := hf.short ∘ hg.short
  exists_buffers := by
    intro hshort s h
    obtain ⟨s₁, hs₁, h₁⟩ := hf.exists_buffers (hg.short hshort) s h
    obtain ⟨s₂, hs₂, h₂⟩ := hg.exists_buffers hshort s₁ h₁
    refine ⟨s₂, ?_, h₂⟩
    rw [hs₁]
    exact hs₂

theorem foldlM {α : Type} {xs : List α} {text : τ → α → Option τ} {round : σ → α → Option σ}
    (hround : ∀ x ∈ xs, ∀ t t', text t x = some t' → Follows Hold Short (round · x) t t')
    (heq : xs.foldlM text t = some t') : Follows Hold Short (xs.foldlM round ·) t t' := by
  induction xs generalizing t with
  | nil =>
    obtain rfl := Option.some.inj heq
    exact refl t
  | cons x xs ih =>
    obtain ⟨hx, hxs⟩ := List.forall_mem_cons.mp hround
    obtain ⟨t₁, ht₁, hrest⟩ := Option.bind_eq_some_iff.mp heq
    exact (hx t t₁ ht₁).trans (ih hxs hrest)

end Follows

end Follows

section Rounds

variable {cj : Cjson} {db : Sqlite} {time : ℕ} {w : Work} {info : Rule} {t t' : SqlText}
  {lists : Sbuf × Sbuf} {c : Composed} {isNeedSet : Bool} {calls : List DbCall} {table : Bytes}

theorem SqlText.short_of_append {key value : Bytes}
    (h : (⟨t.key ++ key, t.value ++ value⟩ : SqlText).Short) :
    t.Short ∧ (⟨key, value⟩ : SqlText).Short := by
  obtain ⟨hkey, hvalue⟩ := h
  rw [List.length_append] at hkey hvalue
  exact ⟨⟨(Nat.le_add_right ..).trans_lt hkey, (Nat.le_add_right ..).trans_lt hvalue⟩,
    (Nat.le_add_left ..).trans_lt hkey, (Nat.le_add_left ..).trans_lt hvalue⟩

theorem SqlText.Short.of_add {column value : Bytes} (h : (t.add column value).Short) : t.Short :=
  (SqlText.short_of_append h).1

theorem follows_composeBuffers (pf : Printf) (hcolumn : ∀ j, 0 ∉ info.column j) (j : RuleField)
    (heq : fieldClause time w info t j = some t') :
    Follows ListsHold SqlText.Short (composeBuffers pf time w info · j) t t' := by
  unfold fieldClause at heq
  unfold composeBuffers
  split_ifs at heq ⊢
  · obtain ⟨text, htext, rfl⟩ := Option.map_eq_some_iff.mp heq
    refine ⟨SqlText.Short.of_add, fun hshort lists h => ?_⟩
    obtain ⟨alter, halter, -⟩ := SbufText.exists_init 512
    obtain ⟨key, hkey, hkeyText⟩ := h.key.exists_appendOwn pf (strlen (info.column j) + 8)
      (zero_not_mem_comma (hcolumn j)) hshort.1
    obtain ⟨value, hvalue, hvalueText⟩ := h.value.exists_appendOwn pf (valueCap text j)
      (zero_not_mem_comma (zero_not_mem_fieldText htext)) hshort.2
    refine ⟨(key, value), ?_, hkeyText, hvalueText⟩
    simp only [halter, htext, hkey, hvalue, Option.bind_eq_bind, Option.bind_some]
  · obtain rfl := Option.some.inj heq
    exact .refl t

theorem zero_not_mem_alterText {pas : Bytes} (htable : 0 ∉ table) (hpas : 0 ∉ pas)
    (value : Option PayloadValue) : 0 ∉ alterText table pas value := by
  unfold alterText
  simp only [List.mem_append, not_or]
  refine ⟨⟨⟨⟨⟨⟨by decide, htable⟩, by decide⟩, hpas⟩, by decide⟩, ?_⟩, by decide⟩
  split <;> decide

/-- What one stored field asks of the database and adds to the ALTER TABLE statements. -/
def alterStep (db : Sqlite) (info : Rule) (isNeedSet : Bool) (alter : Bytes) (calls : List DbCall)
    (pas : Bytes) (value : Option PayloadValue) : Bytes × List DbCall :=
  match isNeedSet, info.tableName with
  | true, some table =>
    let (calls, found) := columnExists db calls table pas
    (if found then alter else alter ++ alterText table pas value, calls)
  | _, _ => (alter, calls)

theorem storeStep_some {p : RulePayload} {pas : Bytes} (h : p.stored = some pas) (c : Composed) :
    storeStep cj db info isNeedSet c p =
      ⟨c.text.add pas (payloadText cj p.value),
        (alterStep db info isNeedSet c.alter c.calls pas p.value).1,
        (alterStep db info isNeedSet c.alter c.calls pas p.value).2,
        c.payload ++ [{ p with value := none }]⟩ := by
  unfold storeStep alterStep
  rw [h]
  cases isNeedSet <;> cases info.tableName <;> rfl

theorem length_alterStep (alter : Bytes) (pas : Bytes) (value : Option PayloadValue) :
    alter.length ≤ (alterStep db info isNeedSet alter calls pas value).1.length := by
  unfold alterStep
  split
  · dsimp only
    split_ifs
    · exact le_rfl
    · exact (List.sublist_append_left alter _).length_le
  · exact le_rfl

theorem exists_alterBuffer (pf : Printf) {sb : Sbuf} {alter pas : Bytes} (h : SbufText sb alter)
    (htable : ∀ table ∈ info.tableName, 0 ∉ table) (hpas : 0 ∉ pas) {value : Option PayloadValue}
    (hshort : (alterStep db info isNeedSet alter calls pas value).1.length < 2147483647) :
    ∃ sb', alterBuffer pf db info isNeedSet sb calls pas value =
        some (sb', (alterStep db info isNeedSet alter calls pas value).2) ∧
      SbufText sb' (alterStep db info isNeedSet alter calls pas value).1 := by
  unfold alterBuffer
  unfold alterStep at hshort ⊢
  split at hshort
  next table hname =>
    dsimp only at hshort ⊢
    split_ifs at hshort ⊢ with hfound
    · exact ⟨sb, rfl, h⟩
    · obtain ⟨sb', hsb', htext⟩ := h.exists_appendf pf
        (zero_not_mem_alterText (htable table hname) hpas value) hshort
      refine ⟨sb', ?_, htext⟩
      rw [hsb']
      rfl
  next => exact ⟨sb, rfl, h⟩

theorem follows_storeBuffers (pf : Printf) (htable : ∀ table ∈ info.tableName, 0 ∉ table)
    {p : RulePayload} (hpas : ∀ pas ∈ p.stored, 0 ∉ pas) (c : Composed) :
    Follows OwnHolds Composed.Short (storeBuffers pf cj db info isNeedSet · p) c
      (storeStep cj db info isNeedSet c p) := by
  cases hstored : p.stored with
  | none =>
    simp only [storeBuffers, storeStep, hstored]
    exact ⟨fun h => ⟨h.text, h.alter⟩, fun _ own h => ⟨own, rfl, h.key, h.value, h.alter, h.calls⟩⟩
  | some pas =>
    rw [storeStep_some hstored]
    refine ⟨fun h => ⟨h.text.of_add, lt_of_le_of_lt (length_alterStep _ _ _) h.alter⟩,
      fun hshort own h => ?_⟩
    obtain ⟨key, hkey, hkeyText⟩ := h.key.exists_appendf pf
      (zero_not_mem_comma (hpas pas hstored)) hshort.text.1
    obtain ⟨alter, halter, halterText⟩ := exists_alterBuffer pf h.alter htable (hpas pas hstored)
      hshort.alter
    obtain ⟨value, hvalue, hvalueText⟩ := h.value.exists_appendf pf
      (zero_not_mem_comma (zero_not_mem_payloadText cj p.value)) hshort.text.2
    refine ⟨⟨key, value, alter, _⟩, ?_, hkeyText, hvalueText, halterText, rfl⟩
    simp only [storeBuffers, hstored, hkey, h.calls, halter, hvalue, Option.bind_eq_bind,
      Option.bind_some]

theorem follows_payload (pf : Printf) (hnames : CNames info table)
    (hname : info.tableName = some table) (c : Composed) :
    Follows OwnHolds Composed.Short
      (info.payload.foldlM (storeBuffers pf cj db info isNeedSet) ·) c
      (info.payload.foldl (storeStep cj db info isNeedSet) c) := by
  have hfold : info.payload.foldlM (fun c p => some (storeStep cj db info isNeedSet c p)) c =
      some (info.payload.foldl (storeStep cj db info isNeedSet) c) := List.foldlM_pure
  refine Follows.foldlM ?_ hfold
  intro p hp c c' heq
  obtain rfl := Option.some.inj heq
  refine follows_storeBuffers pf ?_ (hnames.pas p hp) c
  rw [hname]
  rintro _ ⟨⟩
  exact hnames.table

/-- The composed row with the lists written behind others. -/
def Composed.behind (c : Composed) (t : SqlText) : Composed :=
  { c with text := ⟨t.key ++ c.text.key, t.value ++ c.text.value⟩ }

theorem foldl_storeStep_behind (t : SqlText) (ps : List RulePayload) (c : Composed) :
    ps.foldl (storeStep cj db info isNeedSet) (c.behind t) =
      (ps.foldl (storeStep cj db info isNeedSet) c).behind t := by
  induction ps generalizing c with
  | nil => rfl
  | cons p ps ih =>
    have hstep : storeStep cj db info isNeedSet (c.behind t) p =
        (storeStep cj db info isNeedSet c p).behind t := by
      cases hstored : p.stored with
      | none => simp only [storeStep, hstored, Composed.behind]
      | some pas =>
        simp only [storeStep_some hstored, Composed.behind, SqlText.add, List.append_assoc]
    rw [List.foldl_cons, List.foldl_cons, hstep, ih]

theorem foldl_storeStep_start (t : SqlText) (ps : List RulePayload) (calls : List DbCall) :
    ps.foldl (storeStep cj db info isNeedSet) ⟨t, [], calls, []⟩ =
      (ps.foldl (storeStep cj db info isNeedSet) ⟨⟨[], []⟩, [], calls, []⟩).behind t := by
  rw [← foldl_storeStep_behind]
  simp only [Composed.behind, List.append_nil]

theorem short_of_payloadClause
    (hclause : payloadClause cj db w info isNeedSet calls t = some c) (h : c.text.Short) :
    t.Short := by
  unfold payloadClause at hclause
  split_ifs at hclause
  · obtain ⟨data, -, rfl⟩ := Option.map_eq_some_iff.mp hclause
    rw [foldl_storeStep_start] at h
    exact (SqlText.short_of_append h).1
  · obtain rfl := Option.some.inj hclause
    exact h

theorem Composed.Short.of_behind (h : (c.behind t).Short) : c.Short :=
  ⟨(SqlText.short_of_append h.text).2, h.alter⟩

/-- The round of the payload fields writes the lists and executes the statements that
`payloadClause` gives. -/
theorem exists_payloadBuffers (pf : Printf) (index : ℕ) (hnames : CNames info table)
    (hname : info.tableName = some table)
    (hclause : payloadClause cj db w info isNeedSet calls t = some c) (hshort : c.Short)
    (h : ListsHold lists t) :
    ∃ lists', payloadBuffers pf cj db w info index isNeedSet calls lists =
        some (lists', if c.alter = [] then c.calls else c.calls ++ [.alter index c.alter]) ∧
      ListsHold lists' c.text := by
  by_cases hflag : info.payloadFlag = true
  · rw [payloadClause, if_pos hflag] at hclause
    rw [payloadBuffers, if_pos hflag]
    obtain ⟨data, hdata, rfl⟩ := Option.map_eq_some_iff.mp hclause
    rw [foldl_storeStep_start] at hshort ⊢
    have hfollows := @follows_payload cj db info isNeedSet table pf hnames hname
      ⟨⟨[], []⟩, [], calls, []⟩
    generalize info.payload.foldl (storeStep cj db info isNeedSet)
      ⟨⟨[], []⟩, [], calls, []⟩ = c at hshort hfollows ⊢
    obtain ⟨alter₀, halter₀, halterText₀⟩ := SbufText.exists_init 512
    obtain ⟨value₀, hvalue₀, hvalueText₀⟩ := SbufText.exists_init (UInt64.ofNat (strlen data * 2))
    obtain ⟨own, hown, hholds⟩ := hfollows.exists_buffers hshort.of_behind
      ⟨alter₀, value₀, alter₀, calls⟩ ⟨halterText₀, hvalueText₀, halterText₀, rfl⟩
    obtain ⟨key, hkey, hkeyText⟩ := h.key.exists_append hholds.key.zero
      (lt_trans hshort.text.1 (by decide))
    obtain ⟨value, hvalue, hvalueText⟩ := h.value.exists_append hholds.value.zero
      (lt_trans hshort.text.2 (by decide))
    refine ⟨(key, value), ?_, hkeyText, hvalueText⟩
    simp only [halter₀, hdata, hvalue₀, hown, hholds.key.readString_buf,
      hholds.value.readString_buf, hholds.alter.readString_buf, hkey, hvalue, hholds.calls,
      hholds.alter.holds.len, List.length_eq_zero_iff, Option.bind_eq_bind, Option.bind_some]
    change ite _ _ _ = some (_, if c.alter = [] then c.calls else _)
    split_ifs <;> rfl
  · rw [payloadClause, if_neg hflag] at hclause
    obtain rfl := Option.some.inj hclause
    refine ⟨lists, ?_, h⟩
    rw [payloadBuffers, if_neg hflag, if_pos rfl]

theorem exists_startBuffers (pf : Printf) (htable : 0 ∉ table)
    (hshort : (⟨table ++ ascii " (", ascii "VALUES ("⟩ : SqlText).Short) :
    ∃ lists, startBuffers pf table = some lists ∧
      ListsHold lists ⟨table ++ ascii " (", ascii "VALUES ("⟩ := by
  obtain ⟨key₀, hkey₀, hkeyText₀⟩ := SbufText.exists_init 256
  obtain ⟨value₀, hvalue₀, hvalueText₀⟩ := SbufText.exists_init 512
  obtain ⟨key, hkey, hkeyText⟩ := hkeyText₀.exists_appendf pf
    (List.not_mem_append htable (by decide)) hshort.1
  obtain ⟨value, hvalue, hvalueText⟩ := hvalueText₀.exists_append
    (by decide : 0 ∉ ascii "VALUES (") (by decide)
  refine ⟨(key, value), ?_, hkeyText, hvalueText⟩
  simp only [startBuffers, hkey₀, hvalue₀, hkey, hvalue, Option.bind_eq_bind, Option.bind_some]

theorem ListsHold.statementBuffers_eq (h : ListsHold lists t) (pf : Printf) (hshort : t.Short) :
    statementBuffers pf lists = some (insertText t) := by
  obtain ⟨clause₀, hclause₀, htext₀⟩ := SbufText.exists_init 1024
  obtain ⟨clause₁, hclause₁, htext₁⟩ := htext₀.exists_appendf pf
    (by decide : 0 ∉ ascii "INSERT INTO ") (by decide)
  simp only [statementBuffers, insertText, hclause₀, hclause₁, h.key.readString_buf,
    h.value.readString_buf, Option.bind_eq_bind, Option.bind_some]
  cases hkey : setLast 44 41 t.key with
  | none => rfl
  | some key =>
    cases hvalue : setLast 44 41 t.value with
    | none => rfl
    | some value =>
      have hkeyLen := length_setLast hkey
      have hvalueLen := length_setLast hvalue
      obtain ⟨hkeyShort, hvalueShort⟩ := hshort
      have hinto : (ascii "INSERT INTO ").length = 12 := rfl
      have hend : (ascii ";").length = 1 := rfl
      obtain ⟨clause₂, hclause₂, htext₂⟩ := htext₁.exists_append
        (zero_not_mem_setLast hkey h.key.zero)
        (by simp only [List.nil_append, List.length_append]; omega)
      obtain ⟨clause₃, hclause₃, htext₃⟩ := htext₂.exists_append
        (zero_not_mem_setLast hvalue h.value.zero)
        (by simp only [List.nil_append, List.length_append]; omega)
      obtain ⟨clause, hclause, htext⟩ := htext₃.exists_append (by decide : 0 ∉ ascii ";")
        (by simp only [List.nil_append, List.length_append]; omega)
      simp only [hclause₂, hclause₃, hclause, htext.readString_buf, Option.bind_some,
        Option.map_some, List.nil_append]

theorem insertBuffers_of_clauses (pf : Printf) (index : ℕ) (hname : info.tableName = some table)
    (hnames : CNames info table)
    (hfields : RuleField.all.foldlM (fieldClause time w info)
      ⟨table ++ ascii " (", ascii "VALUES ("⟩ = some t)
    (hclause : payloadClause cj db w info isNeedSet calls t = some c) (hshort : c.Short) :
    insertBuffers pf cj db time w info index isNeedSet calls table =
      some (insertText c.text,
        if c.alter = [] then c.calls else c.calls ++ [.alter index c.alter]) := by
  have hrounds : Follows ListsHold SqlText.Short
      (RuleField.all.foldlM (composeBuffers pf time w info) ·)
      ⟨table ++ ascii " (", ascii "VALUES ("⟩ t :=
    Follows.foldlM (fun j _ _ _ => follows_composeBuffers pf hnames.column j) hfields
  have ht := short_of_payloadClause hclause hshort.text
  obtain ⟨lists₀, hlists₀, h₀⟩ := exists_startBuffers pf hnames.table (hrounds.short ht)
  obtain ⟨lists₁, hlists₁, h₁⟩ := hrounds.exists_buffers ht lists₀ h₀
  obtain ⟨lists, hlists, h⟩ := exists_payloadBuffers pf index hnames hname hclause hshort h₁
  simp only [insertBuffers, hlists₀, hlists₁, hlists, h.statementBuffers_eq pf hshort.text,
    Option.bind_eq_bind, Option.bind_some]

theorem length_alterText_le (table pas : Bytes) (value : Option PayloadValue) :
    (alterText table pas value).length ≤ table.length + 24 + pas.length := by
  have halter : (ascii "ALTER TABLE ").length = 12 := rfl
  have hadd : (ascii " ADD ").length = 5 := rfl
  have hblank : (ascii " ").length = 1 := rfl
  have hint : (ascii "INT").length = 3 := rfl
  have htext : (ascii "TEXT").length = 4 := rfl
  have hend : (ascii ";\n").length = 2 := rfl
  unfold alterText
  dsimp only
  split <;> simp only [List.length_append] <;> omega

/-- An ALTER TABLE statement is longer than the name of its column by a factor at most. -/
theorem length_alterStep_le (db : Sqlite) (htable : info.tableName = some table) (isNeedSet : Bool)
    (alter : Bytes) (calls : List DbCall) (pas : Bytes) (value : Option PayloadValue) :
    (alterStep db info isNeedSet alter calls pas value).1.length ≤
      alter.length + (table.length + 24) * (pas.length + 2) := by
  unfold alterStep
  rw [htable]
  split
  next table' hname =>
    obtain rfl := Option.some.inj hname
    have hlength := length_alterText_le table pas value
    have hpas : pas.length ≤ (table.length + 24) * pas.length :=
      Nat.le_mul_of_pos_left _ (Nat.succ_pos _)
    dsimp only
    split_ifs
    · exact Nat.le_add_right _ _
    · rw [List.length_append, Nat.mul_add]
      omega
  next => exact Nat.le_add_right _ _

theorem length_alter_le (htable : info.tableName = some table) (ps : List RulePayload)
    (h : c.alter.length ≤ (table.length + 24) * c.text.key.length) :
    (ps.foldl (storeStep cj db info isNeedSet) c).alter.length ≤
      (table.length + 24) * (ps.foldl (storeStep cj db info isNeedSet) c).text.key.length := by
  induction ps generalizing c with
  | nil => exact h
  | cons p ps ih =>
    refine ih ?_
    cases hstored : p.stored with
    | none => simpa only [storeStep, hstored] using h
    | some pas =>
      have hstep := length_alterStep_le db htable isNeedSet c.alter c.calls pas p.value
      have hcomma : (ascii ", ").length = 2 := rfl
      rw [storeStep_some hstored]
      simp only [SqlText.add, List.length_append, hcomma, Nat.mul_add] at hstep ⊢
      omega

theorem exists_clauses_of_composeRow {index : ℕ} (hsqlite : info.forword = .sqlite table)
    (hrow : composeRow cj db time w index info isNeedSet calls = some c) :
    ∃ t c₀, RuleField.all.foldlM (fieldClause time w info)
        ⟨table ++ ascii " (", ascii "VALUES ("⟩ = some t ∧
      payloadClause cj db w info isNeedSet calls t = some c₀ ∧ c₀.text = c.text ∧
      c₀.alter = c.alter ∧
      (if c₀.alter = [] then c₀.calls else c₀.calls ++ [.alter index c₀.alter]) = c.calls := by
  have htable : info.sqliteTable = some table := by rw [Rule.sqliteTable, hsqlite]
  unfold composeRow at hrow
  rw [htable] at hrow
  dsimp only at hrow
  split at hrow
  next => cases hrow
  next t hfields =>
    obtain ⟨c₀, hclause, rfl⟩ := Option.map_eq_some_iff.mp hrow
    refine ⟨t, c₀, hfields, hclause, ?_⟩
    split_ifs <;> exact ⟨rfl, rfl, rfl⟩

/-- A row that fits in the arrays of a MySQL or PostgreSQL rule is the row of the same rule for
SQLite. -/
theorem exists_recordText_sqlite {table sql : Bytes}
    (hforword : info.forword = .mysql table ∨ info.forword = .postgresql table)
    (hname : table.length ≤ 125) (hok : ruleEngineInsertSqlRow cj time w info = .ok sql) :
    ∃ t, recordText cj time w { info with forword := .sqlite table } = some t ∧
      t.key.length ≤ 127 ∧ t.value.length ≤ 799 ∧ insertText t = some sql := by
  have htable : info.serverTable = some table := by
    rcases hforword with h | h <;> rw [Rule.serverTable, h]
  have hlength : (table ++ ascii " (").length ≤ 127 := by
    rw [List.length_append]
    exact Nat.add_le_add_right hname 2
  have hfield : fieldRound time w { info with forword := .sqlite table } =
      fieldRound time w info := by
    funext j
    cases j with
    | timestamp => rcases hforword with h | h <;> simp only [fieldRound, fieldText, h] <;> rfl
    | _ => rfl
  obtain ⟨t, hrounds, htext, hkey, hvalue⟩ := exists_rounds_of_ok htable hok
  rw [List.take_of_length_le hlength] at hrounds
  refine ⟨t, recordText_of_rounds rfl ?_, by omega, by omega, htext⟩
  rw [clauseRounds, hfield]
  exact hrounds

/-- A row that is short enough for the arrays has short ALTER TABLE statements, too. -/
theorem statement_of_recordText (pf : Printf) (db : Sqlite) (hsqlite : info.forword = .sqlite table)
    (hname : table.length ≤ 125) (hnames : CNames info table)
    (hrecord : recordText cj time w info = some t) (hkey : t.key.length ≤ 127)
    (hvalue : t.value.length ≤ 799) (index : ℕ) (isNeedSet : Bool) (calls : List DbCall) :
    (insertBuffers pf cj db time w info index isNeedSet calls table).map Prod.fst =
      some (insertText t) := by
  have htable : info.tableName = some table := by rw [Rule.tableName, hsqlite]
  have hmap : (composeRow cj db time w index info isNeedSet calls).map
      (fun c => (c.text, c.payload)) = _ := composeRow_eq hsqlite index isNeedSet calls
  rw [hrecord, Option.map_some] at hmap
  obtain ⟨c, hrow, hparts⟩ := Option.map_eq_some_iff.mp hmap
  obtain ⟨rfl, -⟩ := Prod.mk.inj hparts
  obtain ⟨t₀, c₀, hfields, hclause, htext, -⟩ := exists_clauses_of_composeRow hsqlite hrow
  rw [← htext] at hkey hvalue ⊢
  have halter : c₀.alter.length ≤ (table.length + 24) * c₀.text.key.length := by
    unfold payloadClause at hclause
    split_ifs at hclause
    · obtain ⟨data, -, rfl⟩ := Option.map_eq_some_iff.mp hclause
      exact length_alter_le htable info.payload (Nat.zero_le _)
    · obtain rfl := Option.some.inj hclause
      exact Nat.zero_le _
  have hbound : (table.length + 24) * c₀.text.key.length ≤ 149 * 127 :=
    Nat.mul_le_mul (by omega) hkey
  have hshort : c₀.Short := ⟨⟨by omega, by omega⟩, by omega⟩
  rw [insertBuffers_of_clauses pf index htable hnames hfields hclause hshort, Option.map_some]

end Rounds

/-- What `rule_engine_insert_sqlite` executes are the statements of the composed row, if no name has
a zero byte and the texts are shorter than an `int` can say. -/
theorem insertBuffers_eq_insertText (pf : Printf) (cj : Cjson) (db : Sqlite) (time : ℕ) (w : Work)
    {info : Rule} {table : Bytes} (hsqlite : info.forword = .sqlite table) (index : ℕ)
    (isNeedSet : Bool) (calls : List DbCall) {c : Composed}
    (hrow : composeRow cj db time w index info isNeedSet calls = some c)
    (hnames : CNames info table) (hshort : c.Short) :
    insertBuffers pf cj db time w info index isNeedSet calls table =
      some (insertText c.text, c.calls) := by
  have hname : info.tableName = some table := by rw [Rule.tableName, hsqlite]
  obtain ⟨t, c₀, hfields, hclause, htext, halter, hcalls⟩ :=
    exists_clauses_of_composeRow hsqlite hrow
  have hshort₀ : c₀.Short := ⟨htext ▸ hshort.text, halter ▸ hshort.alter⟩
  rw [insertBuffers_of_clauses pf index hname hnames hfields hclause hshort₀, hcalls, htext]

def storedMember : Rule :=
  { topicRule (ascii "t") (ascii "a") with
    payloadFlag := true
    payload := [⟨[ascii "m"], some (ascii "m"), true, none, .none, some (.string (ascii "on"))⟩] }

theorem insertBuffers_eq_insertText_member :
    insertBuffers Printf.posix Cjson.integers Sqlite.willing 0 (publishedFive (ascii "c"))
        storedMember 0 true [] (ascii "a") =
      some (some (ascii "INSERT INTO a (Topic, m) VALUES ('t', 'on') ;"),
        [.prepare (ascii "PRAGMA table_info(a);"),
          .alter 0 (ascii "ALTER TABLE a ADD m TEXT;\n")]) := by
  have hnames : CNames storedMember (ascii "a") := by
    refine ⟨by decide, fun j => by cases j <;> decide, List.forall_mem_singleton.mpr ?_⟩
    intro pas hpas
    obtain rfl := Option.some.inj hpas
    decide
  rw [insertBuffers_eq_insertText Printf.posix Cjson.integers Sqlite.willing 0 _ rfl 0 true [] rfl
    hnames ⟨⟨by decide, by decide⟩, by decide⟩]
  decide

/-- Whatever MySQL or PostgreSQL gets from the arrays of a rule, SQLite gets from the buffers of the
same rule. -/
theorem server_row_eq_sqlite (pf : Printf) (cj : Cjson) (db : Sqlite) (time : ℕ) (w : Work)
    {info : Rule} {table sql : Bytes}
    (hforword : info.forword = .mysql table ∨ info.forword = .postgresql table)
    (hname : table.length ≤ 125) (hnames : CNames info table)
    (hok : ruleEngineInsertSqlRow cj time w info = .ok sql) (index : ℕ) (isNeedSet : Bool)
    (calls : List DbCall) :
    (insertBuffers pf cj db time w { info with forword := .sqlite table } index isNeedSet calls
      table).map Prod.fst = some (some sql) := by
  obtain ⟨t, hrecord, hkey, hvalue, htext⟩ := exists_recordText_sqlite hforword hname hok
  have hnames' : CNames { info with forword := .sqlite table } table :=
    ⟨hnames.table, hnames.column, hnames.pas⟩
  rw [statement_of_recordText pf db rfl hname hnames' hrecord hkey hvalue, htext]

theorem server_row_eq_sqlite_payload :
    (insertBuffers Printf.posix Cjson.integers Sqlite.willing 0
        (publishedUnder (ascii "t") (ascii "on"))
        { mysqlPayloadRule with forword := .sqlite (ascii "a") } 0 true [] (ascii "a")).map
      Prod.fst = some (some (ascii "INSERT INTO a (Payload) VALUES ('on') ;")) := by
  have hnames : CNames mysqlPayloadRule (ascii "a") :=
    ⟨by decide, fun j => by cases j <;> decide, fun p hp => by cases hp⟩
  have hok : ruleEngineInsertSqlRow Cjson.integers 0 (publishedUnder (ascii "t") (ascii "on"))
      mysqlPayloadRule = .ok (ascii "INSERT INTO a (Payload) VALUES ('on') ;") := rfl
  exact server_row_eq_sqlite Printf.posix Cjson.integers Sqlite.willing 0 _ (Or.inl rfl)
    (by decide) hnames hok 0 true []

end NanoMQ
