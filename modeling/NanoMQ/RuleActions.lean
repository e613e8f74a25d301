import NanoMQ.JsonAccess
import NanoMQ.KeyedUpdate

/-!
# The actions of rules

What a rule does with a matching message: publish it again, or store it in a database. The REST
handlers read the parameters of an action by name: `repubSchema`, `dbSchema` and `sqliteSchema` are
the three chains of comparisons. A `repub_t` and the structure of a database rule are behind a
pointer, and a handler can release one while its rule stays; then the data is `none`.
-/

namespace NanoMQ

open ByteBuffer

def nameLookup {α : Type*} (table : List (String × α)) (name : Bytes) : Option α :=
  (table.find? (fun entry => strcaseEq name (ascii entry.1))).map Prod.snd

theorem strcaseEq_of_nameLookup {α : Type*} {table : List (String × α)} {name : Bytes} {a : α}
    (h : nameLookup table name = some a) : ∃ s, (s, a) ∈ table ∧ strcaseEq name (ascii s) := by
  obtain ⟨entry, hfind, rfl⟩ := Option.map_eq_some_iff.mp h
  have hname := List.find?_some hfind
  exact ⟨entry.1, List.mem_of_find?_eq_some hfind, hname⟩

inductive DbKind
  | mysql | postgresql | timescaledb
  deriving DecidableEq, Repr

inductive ForwordType
  | repub | sqlite | db (kind : DbKind) | fdb
  deriving DecidableEq, Repr

def ForwordType.ofName : Bytes → Option ForwordType :=
  nameLookup [("repub", .repub), ("sqlite", .sqlite), ("mysql", .db .mysql),
    ("postgresql", .db .postgresql), ("timescaledb", .db .timescaledb)]

structure RepubParams where
  topic : Option Bytes
  address : Option Bytes
  protoVer : UInt8
  keepalive : UInt16
  clientid : Option Bytes
  username : Option Bytes
  password : Option Bytes
  cleanStart : Bool
  deriving DecidableEq, Repr

inductive RepubField
  | topic | address | protoVer | keepalive | clientid | username | password | cleanStart
  deriving DecidableEq, Repr

def repubFields : List (String × RepubField) :=
  [("topic", .topic), ("address", .address), ("proto_ver", .protoVer), ("keepalive", .keepalive),
    ("clientid", .clientid), ("username", .username), ("password", .password),
    ("clean_start", .cleanStart)]

/-- A branch of the chain. `clean_start` compares the name of the parameter with `true`, not its
value. -/
def RepubParams.write (p : RepubParams) (key : Bytes) (field : RepubField) (v : Json) :
    Option RepubParams :=
  match field with
  | .topic => v.valuestring.map (fun s => { p with topic := some s })
  | .address => v.valuestring.map (fun s => { p with address := some s })
  | .protoVer => some { p with protoVer := UInt8.ofInt v.valueint }
  | .keepalive => some { p with keepalive := UInt16.ofInt v.valueint }
  | .clientid => v.valuestring.map (fun s => { p with clientid := some s })
  | .username => v.valuestring.map (fun s => { p with username := some s })
  | .password => v.valuestring.map (fun s => { p with password := some s })
  | .cleanStart => some { p with cleanStart := strcaseEq key (ascii "true") }

def RepubParams.value (p : RepubParams) : RepubField → Json
  | .topic => .stringOrNull p.topic
  | .address => .stringOrNull p.address
  | .protoVer => .number p.protoVer.toNat
  | .keepalive => .number p.keepalive.toNat
  | .clientid => .stringOrNull p.clientid
  | .username => .stringOrNull p.username
  | .password => .stringOrNull p.password
  | .cleanStart => .bool p.cleanStart

def RepubField.stored : RepubField → Json → Json
  | .protoVer, v => .number (UInt8.ofInt v.valueint).toNat
  | .keepalive, v => .number (UInt16.ofInt v.valueint).toNat
  | .cleanStart, _ => .bool false
  | _, v => v

theorem Json.eq_of_valuestring {v : Json} {s : Bytes} (h : v.valuestring = some s) :
    v = .string s := by
  cases v with
  | string t => exact congrArg Json.string (Option.some.inj h)
  | _ => cases h

theorem Json.stringOrNull_inj {a b : Option Bytes}
    (h : (stringOrNull a : Json) = stringOrNull b) : a = b := by
  cases a with
  | none =>
    cases b with
    | none => rfl
    | some t => cases h
  | some s =>
    cases b with
    | none => cases h
    | some t => exact congrArg some (Json.string.inj h)

/-- The name of the parameter is `clean_start`, so it is not `true`. -/
theorem strcaseEq_cleanStart {key : Bytes} (h : nameLookup repubFields key = some .cleanStart) :
    strcaseEq key (ascii "true") = false := by
  obtain ⟨s, hs, heq⟩ := strcaseEq_of_nameLookup h
  obtain rfl : s = "clean_start" := by simpa [repubFields] using hs
  rw [strcaseEq, beq_iff_eq] at heq
  rw [strcaseEq, heq]
  decide

theorem RepubParams.value_write {p q : RepubParams} {key : Bytes} {f : RepubField} {v : Json}
    (hk : nameLookup repubFields key = some f) (h : p.write key f v = some q) (g : RepubField) :
    q.value g = if g = f then f.stored v else p.value g := by
  cases f with
  | protoVer =>
    obtain rfl := Option.some.inj h
    cases g <;> rfl
  | keepalive =>
    obtain rfl := Option.some.inj h
    cases g <;> rfl
  | cleanStart =>
    obtain rfl := Option.some.inj h
    cases g with
    | cleanStart => exact congrArg Json.bool (strcaseEq_cleanStart hk)
    | _ => rfl
  | _ =>
    obtain ⟨s, hs, rfl⟩ := Option.map_eq_some_iff.mp h
    obtain rfl := Json.eq_of_valuestring hs
    cases g <;> rfl

theorem RepubParams.ext_value {p q : RepubParams} (h : ∀ f, p.value f = q.value f) : p = q := by
  have hver : p.protoVer = q.protoVer :=
    UInt8.toNat_inj.mp (Int.ofNat.inj (Json.number.inj (h .protoVer)))
  have halive : p.keepalive = q.keepalive :=
    UInt16.toNat_inj.mp (Int.ofNat.inj (Json.number.inj (h .keepalive)))
  cases p
  cases q
  simp only [RepubParams.mk.injEq]
  exact ⟨Json.stringOrNull_inj (h .topic), Json.stringOrNull_inj (h .address), hver, halive,
    Json.stringOrNull_inj (h .clientid), Json.stringOrNull_inj (h .username),
    Json.stringOrNull_inj (h .password), Json.bool.inj (h .cleanStart)⟩

def repubSchema : KeyedUpdate.Schema Bytes RepubField Json RepubParams Json where
  field := nameLookup repubFields
  write := RepubParams.write
  value := RepubParams.value
  stored := RepubField.stored
  value_write := RepubParams.value_write
  ext := RepubParams.ext_value

/-- `rule_mysql`, `rule_postgresql` and `rule_timescaledb` without the connection. -/
structure DbParams where
  table : Option Bytes
  username : Option Bytes
  password : Option Bytes
  host : Option Bytes
  deriving DecidableEq, Repr

inductive DbField
  | table | username | password | host
  deriving DecidableEq, Repr

def dbFields : List (String × DbField) :=
  [("table", .table), ("username", .username), ("password", .password), ("host", .host)]

def DbParams.write (p : DbParams) (_key : Bytes) (field : DbField) (v : Json) : Option DbParams :=
  v.valuestring.map (fun s =>
    match field with
    | .table => { p with table := some s }
    | .username => { p with username := some s }
    | .password => { p with password := some s }
    | .host => { p with host := some s })

def DbParams.value (p : DbParams) : DbField → Json
  | .table => .stringOrNull p.table
  | .username => .stringOrNull p.username
  | .password => .stringOrNull p.password
  | .host => .stringOrNull p.host

theorem DbParams.value_write {p q : DbParams} {key : Bytes} {f : DbField} {v : Json}
    (h : p.write key f v = some q) (g : DbField) :
    q.value g = if g = f then v else p.value g := by
  obtain ⟨s, hs, rfl⟩ := Option.map_eq_some_iff.mp h
  obtain rfl := Json.eq_of_valuestring hs
  cases f <;> cases g <;> rfl

theorem DbParams.ext_value {p q : DbParams} (h : ∀ f, p.value f = q.value f) : p = q := by
  cases p
  cases q
  simp only [DbParams.mk.injEq]
  exact ⟨Json.stringOrNull_inj (h .table), Json.stringOrNull_inj (h .username),
    Json.stringOrNull_inj (h .password), Json.stringOrNull_inj (h .host)⟩

def dbSchema : KeyedUpdate.Schema Bytes DbField Json DbParams Json where
  field := nameLookup dbFields
  write := DbParams.write
  value := DbParams.value
  stored := fun _ v => v
  value_write := fun _ => DbParams.value_write
  ext := DbParams.ext_value

theorem Json.string_of_valuestring {v : Json} {s : Bytes} (h : v.valuestring = some s)
    {old : Json} (g : Unit) : Json.string s = if g = () then v else old := by
  rw [Json.eq_of_valuestring h, if_pos rfl]

def sqliteSchema : KeyedUpdate.Schema Bytes Unit Json Bytes Json where
  field := nameLookup [("table", ())]
  write := fun _ _ _ v => v.valuestring
  value := fun table _ => .string table
  stored := fun _ v => v
  value_write := fun _ h => Json.string_of_valuestring h
  ext := fun h => Json.string.inj (h ())

inductive RuleAction
  | repub (params : Option RepubParams)
  | sqlite (table : Bytes)
  | db (kind : DbKind) (params : Option DbParams)
  | fdb
  deriving DecidableEq, Repr

def RuleAction.forwordType : RuleAction → ForwordType
  | .repub _ => .repub
  | .sqlite _ => .sqlite
  | .db kind _ => .db kind
  | .fdb => .fdb

def RuleAction.isReleased : RuleAction → Bool
  | .repub none => true
  | .db _ none => true
  | _ => false

end NanoMQ
