import NanoMQ.Conf
import NanoMQ.RuleFilter

/-!
# Forwarding a message by the rules

`rule_engine_insert_sql` goes over the rules and hands a message that matches to the republisher or
writes a row of it into SQLite. The rules are a vector that keeps the values found in payloads;
`calls` records what is asked of the database, with the position of the rule that a statement was
composed from. The result is `none` where the code reads a rule behind the end of the vector or a
string through a `NULL` pointer.

The broker is built without FDB, MySQL, PostgreSQL and TimescaleDB: such rules match and go nowhere.
-/

namespace NanoMQ

open ByteBuffer

def ruleEngSdb : UInt8 := 1
def ruleEngRpb : UInt8 := 8

inductive DbCall
  | prepare (sql : Bytes)
  | alter (rule : ℕ) (sql : Bytes)
  | insert (rule : ℕ) (sql : Bytes)
  | close
  deriving DecidableEq, Repr

/-- What SQLite answers after the calls so far: whether a statement is executed, and the columns of
a table, if the question can be prepared. -/
structure Sqlite where
  execOk : List DbCall → Bytes → Bool
  columnNames : List DbCall → Bytes → Option (List Bytes)

structure RuleState where
  rules : List Rule
  isFirstTime : Bool
  calls : List DbCall
  /-- The topic and the text of what was handed to `nano_client_publish`. -/
  republished : List (Bytes × Bytes)

def sqlEscape (s : Bytes) : Bytes :=
  (cstr s).flatMap (fun c => if c = 39 ∨ c = 92 then [92, c] else [c])

def decimal (n : ℤ) : Bytes := ascii (toString n)

def quoted (s : Bytes) : Bytes := ascii "'" ++ sqlEscape s ++ ascii "'"

def RuleField.columnName : RuleField → Bytes
  | .qos => ascii "Qos"
  | .id => ascii "Id"
  | .topic => ascii "Topic"
  | .clientid => ascii "Clientid"
  | .username => ascii "Username"
  | .password => ascii "Password"
  | .timestamp => ascii "Timestamp"
  | .payloadAll => ascii "Payload"

def Rule.column (r : Rule) (j : RuleField) : Bytes := (r.asName j).getD j.columnName

def RulePayload.stored (p : RulePayload) : Option Bytes := if p.isStore then p.pas else none

structure SqlText where
  key : Bytes
  value : Bytes

def SqlText.add (t : SqlText) (column value : Bytes) : SqlText :=
  ⟨t.key ++ (column ++ ascii ", "), t.value ++ (value ++ ascii ", ")⟩

structure Composed where
  text : SqlText
  alter : Bytes
  calls : List DbCall
  payload : List RulePayload

section Compose

variable (cj : Cjson) (db : Sqlite) (time : ℕ) (w : Work)

def fieldText (info : Rule) : RuleField → Option Bytes
  | .qos => some (decimal w.packet.fixedHeader.qos)
  | .id => some (decimal w.packet.packetId.toNat)
  | .topic => w.packet.topicBody.map quoted
  | .clientid => (w.cparam.bind ConnParam.clientid).map quoted
  | .username => some ((w.cparam.bind ConnParam.username).elim (ascii "NULL") quoted)
  | .password => some ((w.cparam.bind ConnParam.password).elim (ascii "NULL") quoted)
  | .timestamp =>
    match info.forword with
    | .timescaledb _ => some (ascii "to_timestamp(" ++ decimal time ++ ascii ")")
    | _ => some (decimal time)
  | .payloadAll => w.packet.payloadData.map quoted

def fieldClause (info : Rule) (t : SqlText) (j : RuleField) : Option SqlText :=
  if info.flag j then (fieldText time w info j).map (t.add (info.column j)) else some t

def payloadText : Option PayloadValue → Bytes
  | some (.number n) => decimal n
  | some (.string s) => quoted s
  | some (.object v) => quoted (cj.printUnformatted v)
  | none => ascii "NULL"

/-- `sqlite_column_exists` at the end of the calls. The question is cut off at 255 bytes. -/
def columnExists (calls : List DbCall) (table col : Bytes) : List DbCall × Bool :=
  let sql := (ascii "PRAGMA table_info(" ++ table ++ ascii ");").take 255
  (calls ++ [.prepare sql], ((db.columnNames calls sql).getD []).contains col)

def alterText (table pas : Bytes) (value : Option PayloadValue) : Bytes :=
  let type := match value with
    | some (.number _) => ascii "INT"
    | _ => ascii "TEXT"
  ascii "ALTER TABLE " ++ table ++ ascii " ADD " ++ pas ++ ascii " " ++ type ++ ascii ";\n"

def storeStep (info : Rule) (isNeedSet : Bool) (c : Composed) (p : RulePayload) : Composed :=
  match p.stored with
  | none => { c with payload := c.payload ++ [p] }
  | some pas =>
    let (calls, alter) :=
      match isNeedSet, info.tableName with
      | true, some table =>
        let (calls, found) := columnExists db c.calls table pas
        (calls, if found then c.alter else c.alter ++ alterText table pas p.value)
      | _, _ => (c.calls, c.alter)
    ⟨c.text.add pas (payloadText cj p.value), alter, calls,
      c.payload ++ [{ p with value := none }]⟩

/-- `compose_sql_clause_new` for `RULE_PAYLOAD_FIELD`, with a `strlen` of the payload. -/
def payloadClause (info : Rule) (isNeedSet : Bool) (calls : List DbCall) (t : SqlText) :
    Option Composed :=
  if info.payloadFlag then
    w.packet.payloadData.map (fun _ =>
      info.payload.foldl (storeStep cj db info isNeedSet) ⟨t, [], calls, []⟩)
  else some ⟨t, [], calls, info.payload⟩

def composeRow (index : ℕ) (info : Rule) (isNeedSet : Bool) (calls : List DbCall) :
    Option Composed :=
  match info.sqliteTable with
  | none => none
  | some table =>
    match RuleField.all.foldlM (fieldClause time w info)
        ⟨table ++ ascii " (", ascii "VALUES ("⟩ with
    | none => none
    | some t =>
      (payloadClause cj db w info isNeedSet calls t).map (fun c =>
        if c.alter = [] then c else { c with calls := c.calls ++ [.alter index c.alter] })

/-- The last comma of each list becomes a bracket, if there is one. -/
def insertText (t : SqlText) : Option Bytes :=
  (setLast 44 41 t.key).bind (fun key =>
    (setLast 44 41 t.value).map (fun value =>
      ascii "INSERT INTO " ++ key ++ value ++ ascii ";"))

/-- A call of `rule_engine_insert_sql` under way: `failed` once it has returned 1. -/
structure InsertRun where
  st : RuleState
  isNeedSet : Bool
  failed : Bool

/-- The end of `rule_engine_insert_sqlite`: without a column there is nothing to execute. -/
def executeRow (index : ℕ) (info : Rule) (isNeedSet : Bool) (r : InsertRun) (c : Composed) :
    InsertRun :=
  let st := { r.st with
    rules := r.st.rules.set index { info with payload := c.payload }
    isFirstTime := false, calls := c.calls }
  match insertText c.text with
  | none => { r with st := st, isNeedSet := isNeedSet }
  | some sql =>
    if db.execOk c.calls sql then
      { r with
        st := { st with calls := c.calls ++ [.insert index sql] }, isNeedSet := isNeedSet }
    else ⟨{ st with calls := c.calls ++ [.insert index sql, .close] }, isNeedSet, true⟩

/-- `rule_engine_insert_sqlite` with a pointer to the rule at `base`, which reads the rule that is
`i` further on. -/
def ruleEngineInsertSqlite (base i : ℕ) (r : InsertRun) : Option InsertRun :=
  r.st.rules[base + i]?.bind (fun info =>
    let isNeedSet := r.isNeedSet || r.st.isFirstTime
    (composeRow cj db time w (base + i) info isNeedSet r.st.calls).map
      (executeRow db (base + i) info isNeedSet r))

def RuleField.jsonName : RuleField → Bytes
  | .qos => ascii "qos"
  | .id => ascii "id"
  | .topic => ascii "topic"
  | .clientid => ascii "clientid"
  | .username => ascii "username"
  | .password => ascii "password"
  | .timestamp => ascii "timestamp"
  | .payloadAll => ascii "payload"

def fieldJson : RuleField → Option Json
  | .qos => some (.number w.packet.fixedHeader.qos)
  | .id => some (.number w.packet.packetId.toNat)
  | .topic => w.packet.topicBody.map (fun s => .string (cstr s))
  | .clientid => (w.cparam.bind ConnParam.clientid).map (fun s => .string (cstr s))
  | .username => (w.cparam.bind ConnParam.username).map (fun s => .string (cstr s))
  | .password => (w.cparam.bind ConnParam.password).map (fun s => .string (cstr s))
  | .timestamp => some (.number time)
  | .payloadAll =>
    (pubJson cj w.packet).or (w.packet.payloadData.map (fun s => .string (cstr s)))

def PayloadValue.json : PayloadValue → Json
  | .number n => .number n
  | .string s => .string s
  | .object v => v

def addInfoToJson (info : Rule) : Json :=
  .object
    ((RuleField.all.filter info.flag).filterMap (fun j =>
        (fieldJson cj time w j).map (fun v => ((info.asName j).getD j.jsonName, v))) ++
      if info.payloadFlag then
        info.payload.filterMap (fun p =>
          p.stored.bind (fun pas => p.value.map (fun v => (pas, v.json))))
      else [])

end Compose

section Insert

variable (nng : Nng) (cj : Cjson) (db : Sqlite) (conf : Conf) (time : ℕ) (w : Work)

def sqliteOn : Bool := conf.build.sqlite && (conf.ruleEngOption &&& ruleEngSdb) ≠ 0

def forwardRule (i : ℕ) (info : Rule) (r : InsertRun) : Option InsertRun :=
  match info.forword with
  | .repub repub =>
    if (conf.ruleEngOption &&& ruleEngRpb) ≠ 0 then
      some { r with st := { r.st with
        republished := r.st.republished ++
          [(repub.topic, cj.printUnformatted (addInfoToJson cj time w info))] } }
    else some r
  | .sqlite _ => if sqliteOn conf then ruleEngineInsertSqlite cj db time w i i r else some r
  | _ => some r

def ruleStep (r : InsertRun) (i : ℕ) : Option InsertRun :=
  if r.failed then some r
  else
    match r.st.rules[i]? with
    | none => some r
    | some info =>
      if info.enabled then
        match ruleEngineFilter nng cj time w info with
        | none => none
        | some (filter, info') =>
          let r := { r with st := { r.st with rules := r.st.rules.set i info' } }
          if filter then forwardRule cj db conf time w i info' r else some r
      else some r

def ruleEngineInsertSql (st : RuleState) : Option InsertRun :=
  (List.range st.rules.length).foldlM (ruleStep nng cj db conf time w) ⟨st, false, false⟩

end Insert

end NanoMQ
