import NanoMQ.RuleRecord

/-!
# The arrays of a row

For MySQL, PostgreSQL and TimescaleDB `rule_engine_insert_sql` composes a row in three arrays: `key`
of 128 bytes, `value` of 800 and `sql_clause` of 1024. `compose_sql_clause` does not know their
sizes. Each of its rounds makes a text for the columns and one for the values and puts them behind
those of the rounds before with `strcat`.

The lengths of what the rounds make follow from the lengths of the names and strings that go into
them.
-/

namespace NanoMQ

open ByteBuffer

inductive RowFault
  | null
  | overrun
  deriving DecidableEq

/-- `strcat` to an array of a size, with the terminating zero. -/
def strcat (size : ℕ) (dst src : Bytes) : Except RowFault Bytes :=
  if dst.length + src.length + 1 ≤ size then .ok (dst ++ src) else .error .overrun

def Rule.serverTable (r : Rule) : Option Bytes :=
  match r.forword with
  | .mysql table | .postgresql table | .timescaledb table => some table
  | .sqlite _ | .repub _ | .fdb => none

def untilMissing {α : Type} : List (Option α) → List α
  | some x :: xs => x :: untilMissing xs
  | _ => []

def sumOf {α : Type} (f : α → ℕ) : List α → ℕ
  | [] => 0
  | x :: xs => f x + sumOf f xs

section Compose

variable (cj : Cjson) (time : ℕ) (w : Work)

def fieldRound (info : Rule) (j : RuleField) : Option SqlText :=
  (fieldText time w info j).map (SqlText.add ⟨[], []⟩ (info.column j))

def payloadRound (info : Rule) : Option SqlText :=
  w.packet.payloadData.map (fun _ => info.payload.foldl (storeText cj) ⟨[], []⟩)

def clauseRounds (info : Rule) : List (Option SqlText) :=
  (RuleField.all.filter info.flag).map (fieldRound time w info) ++
    if info.payloadFlag then [payloadRound cj w info] else []

def appendRound (t : SqlText) : Option SqlText → Except RowFault SqlText
  | none => .error .null
  | some p => do
      let key ← strcat 128 t.key p.key
      let value ← strcat 800 t.value p.value
      .ok ⟨key, value⟩

def statementText (t : SqlText) : Except RowFault Bytes :=
  match setLast 44 41 t.key, setLast 44 41 t.value with
  | some key, some value => do
      let sql ← strcat 1024 (ascii "INSERT INTO ") key
      let sql ← strcat 1024 sql value
      strcat 1024 sql (ascii ";")
  | _, _ => .error .null

/-- `rule_engine_insert_sql` for a rule of a server, up to the statement. -/
def ruleEngineInsertSqlRow (info : Rule) : Except RowFault Bytes :=
  match info.rowStart with
  | none => .error .null
  | some start => do
      let t ← (clauseRounds cj time w info).foldlM appendRound start
      statementText t

/-- The length of a string in quotes with what `sql_escape` adds. -/
def quotedLength (s : Bytes) : ℕ :=
  (cstr s).length + (cstr s).countP (fun c => c = 39 || c = 92) + 2

def fieldLength (info : Rule) : RuleField → Option ℕ
  | .qos => some (decimal w.packet.fixedHeader.qos).length
  | .id => some (decimal w.packet.packetId.toNat).length
  | .topic => w.packet.topicBody.map quotedLength
  | .clientid => (w.cparam.bind ConnParam.clientid).map quotedLength
  | .username => some ((w.cparam.bind ConnParam.username).elim 4 quotedLength)
  | .password => some ((w.cparam.bind ConnParam.password).elim 4 quotedLength)
  | .timestamp =>
    match info.forword with
    | .timescaledb _ => some ((decimal time).length + 14)
    | _ => some (decimal time).length
  | .payloadAll => w.packet.payloadData.map quotedLength

def payloadLength : Option PayloadValue → ℕ
  | some (.number n) => (decimal n).length
  | some (.string s) => quotedLength s
  | some (.object v) => quotedLength (cj.printUnformatted v)
  | none => 4

/-- The lengths of the columns and values of a rule, each with a comma and a blank. -/
def rowLengths (info : Rule) : List (Option (ℕ × ℕ)) :=
  (RuleField.all.filter info.flag).map (fun j =>
    (fieldLength time w info j).map (fun n => ((info.column j).length + 2, n + 2))) ++
    if info.payloadFlag then
      w.packet.payloadData.map (fun _ => (0, 0)) :: info.payload.filterMap (fun p =>
        p.stored.map (fun pas => some (pas.length + 2, payloadLength cj p.value + 2)))
    else []

end Compose

section Sums

variable {α β : Type}

theorem untilMissing_map (g : α → β) (xs : List (Option α)) :
    untilMissing (xs.map (Option.map g)) = (untilMissing xs).map g := by
  induction xs with
  | nil => rfl
  | cons x xs ih =>
    cases x with
    | none => rfl
    | some x => exact congrArg (g x :: ·) ih

theorem untilMissing_map_some (xs : List α) : untilMissing (xs.map some) = xs := by
  induction xs with
  | nil => rfl
  | cons x xs ih => exact congrArg (x :: ·) ih

theorem sumOf_map (f : β → ℕ) (g : α → β) (xs : List α) :
    sumOf f (xs.map g) = sumOf (fun x => f (g x)) xs := by
  induction xs with
  | nil => rfl
  | cons x xs ih => rw [List.map_cons, sumOf, sumOf, ih]

theorem sumOf_untilMissing_append (f : α → ℕ) (xs ys : List (Option α)) :
    sumOf f (untilMissing (xs ++ ys)) =
      sumOf f (untilMissing xs) +
        if xs.all Option.isSome then sumOf f (untilMissing ys) else 0 := by
  induction xs with
  | nil => exact (Nat.zero_add _).symm
  | cons x xs ih =>
    cases x with
    | none => rfl
    | some x =>
      change f x + sumOf f (untilMissing (xs ++ ys)) = f x + sumOf f (untilMissing xs) + _
      rw [ih, Nat.add_assoc]
      rfl

end Sums

section Lengths

variable {cj : Cjson} {time : ℕ} {w : Work} {info : Rule}

theorem length_quoted (s : Bytes) : (quoted s).length = quotedLength s := by
  have hescape : ∀ s : Bytes,
      (s.flatMap (fun c => if c = 39 ∨ c = 92 then [92, c] else [c])).length =
        s.length + s.countP (fun c => c = 39 || c = 92) := by
    intro s
    induction s with
    | nil => rfl
    | cons c s ih =>
      rw [List.flatMap_cons, List.length_append, ih, List.countP_cons, List.length_cons]
      by_cases hc : c = 39 ∨ c = 92
      · simp [hc]
        omega
      · simp [hc]
        omega
  rw [quoted, quotedLength, List.length_append, List.length_append, sqlEscape, hescape]
  change 1 + _ + 1 = _
  omega

theorem length_fieldText (j : RuleField) :
    (fieldText time w info j).map List.length = fieldLength time w info j := by
  have hquoted : List.length ∘ quoted = quotedLength := funext length_quoted
  have hmissing : ∀ u : Option Bytes,
      (u.elim (ascii "NULL") quoted).length = u.elim 4 quotedLength := by
    intro u
    cases u with
    | none => rfl
    | some s => exact length_quoted s
  cases j
  case qos => rfl
  case id => rfl
  case username => exact congrArg some (hmissing _)
  case password => exact congrArg some (hmissing _)
  case timestamp =>
    unfold fieldText fieldLength
    cases info.forword
    case timescaledb table =>
      simp only [Option.map_some, List.length_append]
      change some (13 + _ + 1) = _
      congr 1
      omega
    all_goals rfl
  all_goals rw [fieldText, fieldLength, Option.map_map, hquoted]

theorem length_payloadText (v : Option PayloadValue) :
    (payloadText cj v).length = payloadLength cj v := by
  rcases v with _ | _ | _ | _
  · rfl
  · rfl
  · exact length_quoted _
  · exact length_quoted _

def SqlText.lengths (t : SqlText) : ℕ × ℕ := (t.key.length, t.value.length)

theorem lengths_fieldRound (j : RuleField) :
    (fieldRound time w info j).map SqlText.lengths =
      (fieldLength time w info j).map (fun n => ((info.column j).length + 2, n + 2)) := by
  rw [fieldRound, ← length_fieldText, Option.map_map, Option.map_map]
  congr 1
  funext v
  simp [SqlText.lengths, SqlText.add, ascii]

theorem lengths_foldl_storeText (cj : Cjson) (ps : List RulePayload) (t : SqlText) :
    (ps.foldl (storeText cj) t).lengths =
      (t.key.length + sumOf (·.1) (ps.filterMap (fun p =>
          p.stored.map (fun pas => (pas.length + 2, payloadLength cj p.value + 2)))),
        t.value.length + sumOf (·.2) (ps.filterMap (fun p =>
          p.stored.map (fun pas => (pas.length + 2, payloadLength cj p.value + 2))))) := by
  induction ps generalizing t with
  | nil => rfl
  | cons p ps ih =>
    rw [List.foldl_cons, ih, storeText]
    cases hp : p.stored with
    | none =>
      rw [List.filterMap_cons_none (by rw [hp]; rfl)]
      rfl
    | some pas =>
      rw [List.filterMap_cons_some (by rw [hp]; rfl), sumOf, sumOf]
      simp only [Option.elim_some, SqlText.add, List.length_append, length_payloadText]
      simp only [ascii, Nat.add_assoc]
      rfl

theorem sumOf_payloadRound {f : ℕ × ℕ → ℕ} (hf : f = Prod.fst ∨ f = Prod.snd) :
    sumOf (fun t : SqlText => f t.lengths) (untilMissing [payloadRound cj w info]) =
      sumOf f (untilMissing (w.packet.payloadData.map (fun _ => (0, 0)) ::
        info.payload.filterMap (fun p =>
          p.stored.map (fun pas => some (pas.length + 2, payloadLength cj p.value + 2))))) := by
  have hsome : info.payload.filterMap (fun p =>
      p.stored.map (fun pas => some (pas.length + 2, payloadLength cj p.value + 2))) =
      (info.payload.filterMap (fun p =>
        p.stored.map (fun pas => (pas.length + 2, payloadLength cj p.value + 2)))).map some := by
    rw [List.map_filterMap]
    simp only [Option.map_map]
    rfl
  have hlengths := lengths_foldl_storeText cj info.payload ⟨[], []⟩
  rw [payloadRound]
  cases w.packet.payloadData with
  | none => rfl
  | some d =>
    rw [Option.map_some, Option.map_some, untilMissing, untilMissing, hsome,
      untilMissing_map_some, sumOf, sumOf, hlengths]
    rcases hf with rfl | rfl <;> simp [untilMissing, sumOf]

theorem sumOf_clauseRounds {f : ℕ × ℕ → ℕ} (hf : f = Prod.fst ∨ f = Prod.snd) :
    sumOf (fun t : SqlText => f t.lengths) (untilMissing (clauseRounds cj time w info)) =
      sumOf f (untilMissing (rowLengths cj time w info)) := by
  set rounds := (RuleField.all.filter info.flag).map (fieldRound time w info) with hrounds
  have hfields : (RuleField.all.filter info.flag).map (fun j =>
      (fieldLength time w info j).map (fun n => ((info.column j).length + 2, n + 2))) =
      rounds.map (Option.map SqlText.lengths) := by
    rw [hrounds, List.map_map]
    exact List.map_congr_left (fun j _ => (lengths_fieldRound j).symm)
  have hall : (rounds.map (Option.map SqlText.lengths)).all Option.isSome =
      rounds.all Option.isSome := by
    rw [List.all_map]
    congr 1
    funext x
    exact Option.isSome_map
  rw [clauseRounds, rowLengths, hfields, sumOf_untilMissing_append, sumOf_untilMissing_append,
    untilMissing_map, sumOf_map, hall]
  congr 1
  cases info.payloadFlag with
  | false => rfl
  | true => rw [if_pos rfl, if_pos rfl, sumOf_payloadRound hf]

end Lengths

end NanoMQ
