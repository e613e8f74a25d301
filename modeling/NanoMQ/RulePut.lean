import NanoMQ.RulePost

/-!
# PUT /rules/rule:X and DELETE /rules/rule:X

`put_rules` changes the first rule with the id of the request through the pointer `new_rule`.
Without a `rawsql` this points at the rule where it stands. With one, a new rule is appended, takes
over the action of the old one, and the old one is erased. This moves the new rule to the slot
before the one that `new_rule` points at: from then on `new_rule` is one behind the end of the
vector and what is left there is a copy. Both copies hold the same pointer to the data of the
action, so that a write to this data reaches the rule, and a write to `enabled` does not.

`put_rules_update_action` writes the table of a `sqlite` action into `*new_rule` and then copies
`*new_rule` over the last rule of the vector, before it looks at the result of the parameters. For
the other actions it releases the data if a parameter is unknown.
-/

namespace NanoMQ

open ByteBuffer

/-! ### The pointer into the vector -/

/-- What `new_rule` points at, with the vector around it. -/
inductive NewRule
  | inPlace (before : List StoredRule) (rule : StoredRule) (after : List StoredRule)
  | behindEnd (before : List StoredRule) (last stale : StoredRule)

namespace NewRule

def rules : NewRule → List StoredRule
  | inPlace before rule after => before ++ rule :: after
  | behindEnd before last _ => before ++ [last]

def rule : NewRule → StoredRule
  | inPlace _ rule _ => rule
  | behindEnd _ _ stale => stale

def others : NewRule → List StoredRule
  | inPlace before _ after => before ++ after
  | behindEnd before _ _ => before

def setEnabled (enabled : Bool) : NewRule → NewRule
  | inPlace before rule after => inPlace before { rule with enabled := enabled } after
  | behindEnd before last stale => behindEnd before last { stale with enabled := enabled }

/-- A write through the pointer to the data of the action, which two copies share. -/
def writeData (action : RuleAction) : NewRule → NewRule
  | inPlace before rule after => inPlace before { rule with action := action } after
  | behindEnd before last stale =>
    behindEnd before { last with action := action } { stale with action := action }

def writeMember (action : RuleAction) : NewRule → NewRule
  | inPlace before rule after => inPlace before { rule with action := action } after
  | behindEnd before last stale => behindEnd before last { stale with action := action }

def copyToLast : NewRule → NewRule
  | inPlace before rule after =>
    inPlace before rule (if after.isEmpty then [] else after.dropLast ++ [rule])
  | behindEnd before _ stale => behindEnd before stale stale

def store (action : RuleAction) (target : NewRule) : NewRule :=
  match action with
  | .sqlite _ => (target.writeMember action).copyToLast
  | _ => target.writeData action

end NewRule

/-! ### Updating the action -/

section Parse

variable {φ ρ : Type*} [DecidableEq φ]

/-- The body of the functions that read the parameters of an action. -/
def putParse (schema : KeyedUpdate.Schema Bytes φ Json ρ Json)
    (params : List (Option Bytes × Json)) (p : ρ) : Option (ρ × RestCode) :=
  (schema.fill p params).map fun filled =>
    (filled.1, if filled.2 then .succeed else .reqParamError)

end Parse

def putRulesRepubParse := putParse repubSchema

def putRulesSqliteParse := putParse sqliteSchema

def putRulesMysqlParse := putParse dbSchema

def putRulesPostgresqlParse := putParse dbSchema

def putRulesTimescaledbParse := putParse dbSchema

def releasedOnError {ρ : Type*} (done : ρ × RestCode) : Option ρ :=
  if done.2 = .succeed then some done.1 else none

/-- The action after the parameters of a request for it, and the result. Released data has no
result. -/
def RuleAction.parse (params : List (Option Bytes × Json)) :
    RuleAction → Option (RuleAction × RestCode)
  | .repub data => data.bind fun p => (putRulesRepubParse params p).map fun done =>
      (.repub (releasedOnError done), done.2)
  | .sqlite table => (putRulesSqliteParse params table).map fun done => (.sqlite done.1, done.2)
  | .db .mysql data => data.bind fun p => (putRulesMysqlParse params p).map fun done =>
      (.db .mysql (releasedOnError done), done.2)
  | .db .postgresql data => data.bind fun p => (putRulesPostgresqlParse params p).map fun done =>
      (.db .postgresql (releasedOnError done), done.2)
  | .db .timescaledb data => data.bind fun p => (putRulesTimescaledbParse params p).map fun done =>
      (.db .timescaledb (releasedOnError done), done.2)
  | .fdb => none

/-- One action of the request. It must be of the type that the rule has. -/
def putAction (target : NewRule) (action : Json) : Option (NewRule × RestCode) :=
  (action.getStringValue (ascii "name")).bind fun name =>
    if ForwordType.ofName name = some target.rule.action.forwordType then
      (target.rule.action.parse action.params).map fun done => (target.store done.1, done.2)
    else some (target, .reqParamError)

def putRulesUpdateAction : NewRule → List Json → Option (NewRule × RestCode)
  | target, [] => some (target, .succeed)
  | target, action :: rest =>
    (putAction target action).bind fun done =>
      if done.2 = .succeed then putRulesUpdateAction done.1 rest else some done

/-! ### The handlers -/

def findRule (id : ℕ) : List StoredRule → Option (List StoredRule × StoredRule × List StoredRule)
  | [] => none
  | r :: rules =>
    if r.ruleId = id then some ([], r, rules)
    else (findRule id rules).map fun found => (r :: found.1, found.2.1, found.2.2)

/-- The update of the SQL text. Without one the socket of a `repub` rule is closed, which reads its
data. -/
def putSql (ext : RuleExternals) (id : ℕ) (req : Json) (before : List StoredRule)
    (rule : StoredRule) (after : List StoredRule) : Option NewRule :=
  match req.getObjectItem (ascii "rawsql") with
  | some item => item.valuestring.map fun sql =>
      let new : StoredRule := ⟨id, sql, true, rule.action, ext.ruleSqlParse sql⟩
      .behindEnd (before ++ after) new new
  | none =>
    if rule.action = .repub none then none else some (.inPlace before rule after)

def putEnabled (req : Json) (target : NewRule) : NewRule :=
  match req.getObjectItem (ascii "enabled") with
  | some item => target.setEnabled item.isTrue
  | none => target

/-- The client of an enabled rule is started again, whatever comes of it. -/
def putRestart (ext : RuleExternals) (cr : ConfRule) (rule : StoredRule) : Option ConfRule :=
  if rule.enabled then
    match rule.action with
    | .repub none => none
    | .sqlite _ => some (if ext.sqlite then { cr with rdb := (clientSqlite ext cr).rdb } else cr)
    | _ => some cr
  else some cr

def putFound (ext : RuleExternals) (cr : ConfRule) (req : Json) (target : NewRule) :
    Option (ConfRule × RuleAnswer) :=
  match req.getObjectItem (ascii "actions") with
  | none => some ({ cr with rules := target.rules }, .data target.rule.data)
  | some actions =>
    (putRulesUpdateAction target actions.children).bind fun done =>
      if done.2 = .succeed then
        (putRestart ext { cr with rules := done.1.rules } done.1.rule).map fun cr' =>
          (cr', .data done.1.rule.data)
      else some ({ cr with rules := done.1.rules }, .error done.2)

/-- `put_rules`. An id that cannot be read from the request is 0. -/
def putRules (ext : RuleExternals) (cr : ConfRule) (id : ℕ) (body : Option Json) :
    Option (ConfRule × RuleAnswer) :=
  match body.filter Json.isObject with
  | none => some (cr, .error .reqParamsJsonFormatIllegal)
  | some req =>
    match findRule id cr.rules with
    | none => some (cr, .error .reqParamError)
    | some (before, rule, after) =>
      (putSql ext id req before rule after).bind fun target =>
        putFound ext cr req (putEnabled req target)

/-- `delete_rules`. The data of the action is released, which must not have happened before. -/
def deleteRules (cr : ConfRule) (id : ℕ) : Option (ConfRule × RuleAnswer) :=
  match findRule id cr.rules with
  | none => some (cr, .error .missingKeyRequestParames)
  | some (before, rule, after) =>
    if rule.action.isReleased then none
    else some ({ cr with rules := before ++ after }, .done)

/-! ### What a pointer reaches -/

theorem findRule_eq_some {id : ℕ} {rules before after : List StoredRule} {rule : StoredRule}
    (h : findRule id rules = some (before, rule, after)) :
    rules = before ++ rule :: after ∧ rule.ruleId = id ∧ ∀ r ∈ before, r.ruleId ≠ id := by
  induction rules generalizing before with
  | nil => cases h
  | cons r rules ih =>
    rw [findRule] at h
    split_ifs at h with hid
    · obtain ⟨rfl, hrest⟩ := Prod.mk.inj (Option.some.inj h)
      obtain ⟨rfl, rfl⟩ := Prod.mk.inj hrest
      exact ⟨rfl, hid, fun r hr => absurd hr List.not_mem_nil⟩
    · obtain ⟨⟨before', rule', after'⟩, hfound, heq⟩ := Option.map_eq_some_iff.mp h
      obtain ⟨rfl, hrest⟩ := Prod.mk.inj heq
      obtain ⟨rfl, rfl⟩ := Prod.mk.inj hrest
      obtain ⟨rfl, hrule, hbefore⟩ := ih hfound
      exact ⟨rfl, hrule, List.forall_mem_cons.mpr ⟨hid, hbefore⟩⟩

theorem RuleAction.eq_sqlite {a : RuleAction} (h : a.forwordType = .sqlite) :
    ∃ table, a = .sqlite table := by
  cases a with
  | sqlite table => exact ⟨table, rfl⟩
  | _ => cases h

namespace NewRule

variable {target : NewRule} {a b : RuleAction}

@[simp] theorem rule_store : (target.store a).rule = { target.rule with action := a } := by
  cases target <;> cases a <;> rfl

@[simp] theorem rule_setEnabled (e : Bool) :
    (target.setEnabled e).rule = { target.rule with enabled := e } := by
  cases target <;> rfl

theorem store_of_ne (h : a.forwordType ≠ .sqlite) : target.store a = target.writeData a := by
  cases a with
  | sqlite table => exact absurd rfl h
  | _ => rfl

/-- Only the last action stored of one type counts. -/
theorem store_store (h : b.forwordType = a.forwordType) :
    (target.store a).store b = target.store b := by
  by_cases hsqlite : a.forwordType = .sqlite
  · obtain ⟨old, rfl⟩ := RuleAction.eq_sqlite hsqlite
    obtain ⟨table, rfl⟩ := RuleAction.eq_sqlite h
    cases target with
    | inPlace before rule after =>
      cases after with
      | nil => rfl
      | cons r rs => simp [store, writeMember, copyToLast]
    | behindEnd before last stale => rfl
  · rw [store_of_ne hsqlite, store_of_ne (h ▸ hsqlite), store_of_ne (h ▸ hsqlite)]
    cases target <;> rfl

end NewRule

end NanoMQ
