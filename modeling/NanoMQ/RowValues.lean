import NanoMQ.RuleRecord
import NanoMQ.SqliteLex

/-!
# What a row says

The values that the row of a SQLite rule is to hold are the selected fields of the message and the
stored values of its payload. `rowValues` lists them; `written` is what `compose_sql_clause_new`
makes of one, and `tokens` how SQLite has to read it. `ReadsAsInsert` says that a text is to SQLite
the one statement that puts these values into these columns.
-/

namespace NanoMQ

open ByteBuffer SqlLex

inductive SqlValue
  | null
  | number (n : ℤ)
  | text (s : Bytes)
  deriving DecidableEq

def SqlValue.written : SqlValue → Bytes
  | .null => ascii "NULL"
  | .number n => decimal n
  | .text s => quoted s

def SqlValue.tokens : SqlValue → List Token
  | .null => [.word (ascii "NULL")]
  | .number n => (if n < 0 then [.punct 45] else []) ++ [.number (ascii n.natAbs.repr)]
  | .text s => [.string s]

section Values

variable (cj : Cjson) (time : ℕ) (w : Work)

def fieldValue : RuleField → Option SqlValue
  | .qos => some (.number w.packet.fixedHeader.qos)
  | .id => some (.number w.packet.packetId.toNat)
  | .topic => w.packet.topicBody.map .text
  | .clientid => (w.cparam.bind ConnParam.clientid).map .text
  | .username => some ((w.cparam.bind ConnParam.username).elim .null .text)
  | .password => some ((w.cparam.bind ConnParam.password).elim .null .text)
  | .timestamp => some (.number time)
  | .payloadAll => w.packet.payloadData.map .text

/-- A value that was found in the payload. An object is stored as its text. -/
def payloadValue : Option PayloadValue → SqlValue
  | some (.number n) => .number n
  | some (.string s) => .text s
  | some (.object v) => .text (cj.printUnformatted v)
  | none => .null

def rowValues (info : Rule) : List SqlValue :=
  (RuleField.all.filter info.flag).filterMap (fieldValue time w) ++
    if info.payloadFlag then
      info.payload.filterMap (fun p => p.stored.map (fun _ => payloadValue cj p.value))
    else []

end Values

def insertHead (table : Bytes) (columns : List Bytes) : List Token :=
  [.word (ascii "INSERT"), .word (ascii "INTO"), .word table, .punct 40] ++
    [.punct 44].intercalate (columns.map (fun c => [.word c])) ++
    [.punct 41, .word (ascii "VALUES"), .punct 40]

def insertTokens (table : Bytes) (columns : List Bytes) (values : List SqlValue) : List Token :=
  insertHead table columns ++
    ([.punct 44].intercalate (values.map SqlValue.tokens) ++ [.punct 41, .punct 59])

structure ReadsAsInsert (sql table : Bytes) (columns : List Bytes) (values : List SqlValue) :
    Prop where
  tokens : lex sql = some (insertTokens table columns values)
  length_eq : values.length = columns.length

section Row

variable {cj : Cjson} {time : ℕ} {w : Work} {info : Rule} {table : Bytes}
  {columns values : List Bytes} {t : SqlText}

theorem fieldText_eq (hplain : ∀ table, info.forword ≠ .timescaledb table) (j : RuleField) :
    fieldText time w info j = (fieldValue time w j).map SqlValue.written := by
  have hmissing : ∀ u : Option Bytes, u.elim (ascii "NULL") quoted =
      (u.elim .null .text : SqlValue).written := by
    intro u
    cases u <;> rfl
  cases j
  case timestamp =>
    unfold fieldText
    cases hforword : info.forword
    case timescaledb table => exact absurd hforword (hplain table)
    all_goals rfl
  case username => exact congrArg some (hmissing _)
  case password => exact congrArg some (hmissing _)
  case qos => rfl
  case id => rfl
  all_goals
    rw [fieldText, fieldValue, Option.map_map]
    rfl

theorem payloadText_eq (v : Option PayloadValue) :
    payloadText cj v = (payloadValue cj v).written := by
  rcases v with _ | _ | _ | _ <;> rfl

theorem RowText.stores (h : RowText table columns values t) (ps : List RulePayload) :
    RowText table (columns ++ ps.filterMap RulePayload.stored)
      (values ++ ps.filterMap (fun p => p.stored.map (fun _ => payloadText cj p.value)))
      (ps.foldl (storeText cj) t) := by
  induction ps generalizing columns values t with
  | nil => simpa using h
  | cons p ps ih =>
    rw [List.foldl_cons, storeText]
    cases hp : p.stored with
    | none =>
      rw [List.filterMap_cons_none hp, List.filterMap_cons_none (by rw [hp]; rfl)]
      exact ih h
    | some pas =>
      rw [List.filterMap_cons_some hp, List.append_cons columns,
        List.filterMap_cons_some (by rw [hp]; rfl), List.append_cons values]
      exact ih (h.add pas _)

theorem rowText_recordText (hplain : ∀ table, info.forword ≠ .timescaledb table)
    (hstart : info.rowStart = some ⟨table ++ ascii " (", ascii "VALUES ("⟩)
    (h : recordText cj time w info = some t) :
    RowText table info.columns ((rowValues cj time w info).map SqlValue.written) t := by
  have hfields : fieldText time w info = fun j => (fieldValue time w j).map SqlValue.written :=
    funext (fieldText_eq hplain)
  rw [recordText, hstart, Option.bind_some] at h
  obtain ⟨t₁, ht₁, h⟩ := Option.bind_eq_some_iff.mp h
  have hrow := (RowText.nil table).fields ht₁
  rw [List.nil_append, List.nil_append, hfields] at hrow
  unfold Rule.columns rowValues
  rw [List.map_append, List.map_filterMap]
  cases hflag : info.payloadFlag with
  | false =>
    rw [hflag] at h
    obtain rfl := Option.some.inj h
    simpa using hrow
  | true =>
    rw [hflag, if_pos rfl] at h
    obtain ⟨-, -, rfl⟩ := Option.map_eq_some_iff.mp h
    rw [if_pos rfl, if_pos rfl, List.map_filterMap]
    simp only [Option.map_map, Function.comp_def, ← payloadText_eq]
    exact hrow.stores info.payload

end Row

section Read

variable {table : Bytes} {columns : List Bytes}

theorem dialect_lex_insertSql {σ : Type*} (D : Dialect σ) (htable : Ident table)
    (hne : columns ≠ []) (hcolumns : ∀ c ∈ columns, Ident c) (values : List Bytes) :
    D.lex (insertSql table columns values) =
      (D.lex ((ascii ", ").intercalate values ++ [41, 32, 59])).map
        (insertHead table columns ++ ·) := by
  have hinsert : Ident (ascii "INSERT") := ident_cons rfl rfl
  have hinto : Ident (ascii "INTO") := ident_cons rfl rfl
  have hvalues : Ident (ascii "VALUES") := ident_cons rfl rfl
  have htext : insertSql table columns values =
      ascii "INSERT" ++ 32 :: (ascii "INTO" ++ 32 :: (table ++ 32 :: 40 ::
        ([44, 32].intercalate columns ++ 41 :: 32 :: (ascii "VALUES" ++ 32 :: 40 ::
          ((ascii ", ").intercalate values ++ [41, 32, 59]))))) := by
    simp [insertSql, ascii]
  rw [htext, D.lex_word _ hinsert, D.lex_word _ hinto, D.lex_word _ htable, D.lex_punct _ rfl,
    D.lex_idents _ hne hcolumns, D.lex_punct _ rfl, D.lex_blank, D.lex_word _ hvalues,
    D.lex_punct _ rfl]
  simp only [Option.map_map]
  congr 1
  funext ts
  simp [insertHead]

theorem lex_insertSql (htable : Ident table) (hne : columns ≠ [])
    (hcolumns : ∀ c ∈ columns, Ident c) (values : List Bytes) :
    lex (insertSql table columns values) =
      (lexFrom .idle ((ascii ", ").intercalate values ++ [41, 32, 59])).map
        (insertHead table columns ++ ·) := by
  rw [lex, ← sqlite_lex, ← sqlite_lex]
  exact dialect_lex_insertSql sqlite htable hne hcolumns values

theorem piece_scalar {σ : Type*} (D : Dialect σ) {v : SqlValue} (h : ∀ s, v ≠ .text s) :
    D.Piece v.written v.tokens := by
  cases v with
  | null =>
    have hnull : Ident (ascii "NULL") := ident_cons rfl rfl
    exact D.piece_word hnull
  | number n =>
    obtain ⟨hne, hrange⟩ := ascii_repr_digits n.natAbs
    have hdigits : ∀ d ∈ ascii n.natAbs.repr, SqlLex.isDigit d = true := by
      intro d hd
      obtain ⟨hlow, hhigh⟩ := hrange d hd
      simp [SqlLex.isDigit, hlow, hhigh]
    rw [SqlValue.written, SqlValue.tokens, decimal_eq]
    exact D.piece_signed hne hdigits (n < 0)
  | text s => exact absurd rfl (h s)

end Read

end NanoMQ
