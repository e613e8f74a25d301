import Mathlib.Data.Finset.Insert
import NanoMQ.RuleActions
import NanoMQ.RuleTables

/-!
# The rule vector

`conf_rule` as the REST handlers see it: the vector of rules, the flags that switch the kinds of
rules on, and whether there is a SQLite handle. Each rule owns the data of its action.

The parser of the SQL clause, the generator of rule ids and the structure definitions are not part
of this repository. `RuleExternals` has what a handler gets from there during one request, and
`rule_free` is taken to release what the parser made of a rule and not its action.
-/

namespace NanoMQ

open ByteBuffer

structure SqlClause where
  topic : Bytes
  filter : Option (RuleField → Option Bytes)
  cmpType : RuleField → RuleCmp
  flag : RuleField → Bool
  payloadFlag : Bool
  asName : RuleField → Option Bytes
  payload : List RulePayload

structure StoredRule where
  ruleId : ℕ
  rawSql : Bytes
  enabled : Bool
  action : RuleAction
  clause : SqlClause

/-- What a request can show of a rule. -/
structure ShownRule where
  ruleId : ℕ
  rawSql : Bytes
  enabled : Bool
  action : RuleAction
  deriving DecidableEq, Repr

def StoredRule.shown (r : StoredRule) : ShownRule :=
  ⟨r.ruleId, r.rawSql, r.enabled, r.action⟩

/-- The rule as `nanomq_client_sqlite` reads it. -/
def StoredRule.rule (r : StoredRule) : Rule where
  enabled := r.enabled
  forword :=
    match r.action with
    | .repub params => .repub ⟨params.bind (·.clientid), (params.bind (·.topic)).getD []⟩
    | .sqlite table => .sqlite table
    | .db .mysql params => .mysql ((params.bind (·.table)).getD [])
    | .db .postgresql params => .postgresql ((params.bind (·.table)).getD [])
    | .db .timescaledb params => .timescaledb ((params.bind (·.table)).getD [])
    | .fdb => .fdb
  topic := r.clause.topic
  filter := r.clause.filter
  cmpType := r.clause.cmpType
  flag := r.clause.flag
  payloadFlag := r.clause.payloadFlag
  asName := r.clause.asName
  payload := r.clause.payload

inductive RuleEng
  | sdb | fdb | mdb | rpb | pdb | tdb
  deriving DecidableEq, Repr

def DbKind.flag : DbKind → RuleEng
  | .mysql => .mdb
  | .postgresql => .pdb
  | .timescaledb => .tdb

structure ConfRule where
  rules : List StoredRule
  option : Finset RuleEng
  rdb : Bool

def ConfRule.Distinct (cr : ConfRule) : Prop := (cr.rules.map StoredRule.ruleId).Nodup

inductive RestCode
  | succeed | reqParamError | reqParamsJsonFormatIllegal | missingKeyRequestParames | pluginIsClosed
  deriving DecidableEq, Repr

structure RuleData where
  rawsql : Bytes
  id : ℕ
  enabled : Bool
  deriving DecidableEq, Repr

def StoredRule.data (r : StoredRule) : RuleData := ⟨r.rawSql, r.ruleId, r.enabled⟩

inductive RuleAnswer
  | data (data : RuleData)
  | done
  | error (code : RestCode)
  deriving DecidableEq, Repr

/-- What a handler gets from outside during one request: the options of the build, the parser, the
generator of ids, the initial values and the check of a new action, and whether the clients can be
started. An id is generated that no rule has and that is not 0. -/
structure RuleExternals where
  sqlite : Bool
  supports : DbKind → Bool
  ruleSqlParse : Bytes → SqlClause
  ruleGenerateRuleId : List StoredRule → ℕ
  ruleRepubInit : RepubParams
  ruleDbInit : DbKind → DbParams
  ruleDbCheck : DbKind → DbParams → Bool
  nanoClient : List StoredRule → RepubParams → Bool
  dbConnect : DbKind → StoredRule → Bool
  sqliteOpen : Bool
  sqliteExec : List Bytes → Bytes → Bool
  fresh : ∀ rules, ruleGenerateRuleId rules ≠ 0 ∧ ∀ r ∈ rules, r.ruleId ≠ ruleGenerateRuleId rules

end NanoMQ
