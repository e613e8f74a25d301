import NanoMQ.CString
import NanoMQ.Types

/-!
# Rules

A rule of the rule engine as its SQL clause was parsed: the topic, what is selected, what the WHERE
clause asks of the fields of a message and of the values in its JSON payload, and where a matching
message goes. cJSON is not part of this repository: `Json` is a tree it hands out, with integers for
numbers, and `Cjson` the functions of it that the rule engine calls.
-/

namespace NanoMQ

open ByteBuffer

/-- JSON as cJSON holds it. The numbers are integers where only such are of interest. -/
inductive Json (N : Type := ℤ)
  | null
  | bool (b : Bool)
  | number (n : N)
  | string (s : Bytes)
  | array (items : List (Json N))
  | object (members : List (Bytes × Json N))

structure Cjson where
  parseWithLength : Bytes → Option Json
  parse : Bytes → Option Json
  getObjectItem : Json → Bytes → Option Json
  /-- `cJSON_Compare` with regard to case. -/
  compare : Json → Json → Bool
  printUnformatted : Json → Bytes

/-- The fields `RULE_QOS` to `RULE_PAYLOAD_ALL`, which may have a filter and an alias.
`RULE_PAYLOAD_FIELD` behind them has a list of its own. -/
inductive RuleField
  | qos | id | topic | clientid | username | password | timestamp | payloadAll
  deriving DecidableEq, Repr

def RuleField.all : List RuleField :=
  [.qos, .id, .topic, .clientid, .username, .password, .timestamp, .payloadAll]

theorem RuleField.mem_all (j : RuleField) : j ∈ RuleField.all := by
  cases j <;> decide

inductive RuleCmp
  | none | equal | unequal | greater | less | greaterAndEqual | lessAndEqual
  deriving DecidableEq, Repr

/-- What `value` and `type` of a `rule_payload` hold together. -/
inductive PayloadValue
  | number (n : ℤ)
  | string (s : Bytes)
  | object (v : Json)

/-- `rule_payload`: a path into the payload, the name it is stored under and the filter on it.
`value` is `none` while `type` is none of the three it is read for. -/
structure RulePayload where
  psa : List Bytes
  pas : Option Bytes
  isStore : Bool
  filter : Option Bytes
  cmpType : RuleCmp
  value : Option PayloadValue

structure Repub where
  clientid : Option Bytes
  topic : Bytes

inductive RuleForword
  | repub (repub : Repub)
  | sqlite (table : Bytes)
  | fdb
  | mysql (table : Bytes)
  | postgresql (table : Bytes)
  | timescaledb (table : Bytes)

structure Rule where
  enabled : Bool
  forword : RuleForword
  topic : Bytes
  filter : Option (RuleField → Option Bytes)
  cmpType : RuleField → RuleCmp
  flag : RuleField → Bool
  payloadFlag : Bool
  asName : RuleField → Option Bytes
  payload : List RulePayload

def Rule.sqliteTable (r : Rule) : Option Bytes :=
  match r.forword with
  | .sqlite table => some table
  | _ => none

def Rule.tableName (r : Rule) : Option Bytes :=
  match r.forword with
  | .sqlite table | .mysql table | .postgresql table | .timescaledb table => some table
  | .repub _ | .fdb => none

end NanoMQ
