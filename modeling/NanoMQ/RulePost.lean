import NanoMQ.RuleRegistry

/-!
# POST /rules

`post_rules` goes over the actions of the request and adds a rule for each, or one for each table of
a `sqlite` action. The first action that fails ends the request with its code, and the rules of the
actions before it stay. A handler has no result where the source would read through a null pointer:
a missing name, a parameter that should be a string and is not, a rule without SQL text.

A client of a database that cannot connect releases the last rule and takes it off the vector.
-/

namespace NanoMQ

open ByteBuffer

def Json.params (action : Json) : List (Option Bytes × Json) :=
  ((action.getObjectItem (ascii "params")).map Json.named).getD []

/-- The rule that `rule_sql_parse` appends, with the fields the handlers set in it. -/
def newRule (ext : RuleExternals) (rules : List StoredRule) (rawsql : Bytes)
    (action : RuleAction) : StoredRule :=
  ⟨ext.ruleGenerateRuleId rules, rawsql, true, action, ext.ruleSqlParse rawsql⟩

def ConfRule.append (cr : ConfRule) (ext : RuleExternals) (rawsql : Bytes) (action : RuleAction) :
    ConfRule :=
  { cr with rules := cr.rules ++ [newRule ext cr.rules rawsql action] }

def sqliteTableExist (rules : List StoredRule) (name : Bytes) : Bool :=
  rules.any (fun r =>
    match r.action with
    | .sqlite table => strcaseEq table name
    | _ => false)

/-- `nanomq_client_sqlite(cr, true)`. -/
def clientSqlite (ext : RuleExternals) (cr : ConfRule) : ClientSqlite :=
  nanomqClientSqlite ext.sqliteOpen ext.sqliteExec cr.rdb (cr.rules.map StoredRule.rule) true

def postRulesSqlite (ext : RuleExternals) (rawsql : Option Bytes) :
    ConfRule → List (Option Bytes × Json) → Option (ConfRule × RestCode)
  | cr, [] => some ({ cr with option := insert .sdb cr.option }, .succeed)
  | _, (none, _) :: _ => none
  | cr, (some key, v) :: rest =>
    if strcaseEq key (ascii "table") then
      v.valuestring.bind fun table =>
        if sqliteTableExist cr.rules table then some (cr, .reqParamError)
        else rawsql.bind fun sql =>
          let appended := cr.append ext sql (.sqlite table)
          let client := clientSqlite ext appended
          if client.result = 1 then
            some ({ appended with rules := appended.rules.dropLast, rdb := client.rdb },
              .pluginIsClosed)
          else postRulesSqlite ext rawsql { appended with rdb := client.rdb } rest
    else postRulesSqlite ext rawsql cr rest

/-- `nanomq_client_mysql`, `nanomq_client_postgresql` and `nanomq_client_timescaledb` with
`init_last`. -/
def nanomqClientDb (kind : DbKind) (ext : RuleExternals) (cr : ConfRule) : ConfRule × ℤ :=
  match cr.rules.getLast? with
  | some r =>
    if r.action.forwordType = .db kind ∧ ext.dbConnect kind r = false then
      ({ cr with rules := cr.rules.dropLast }, -1)
    else (cr, 0)
  | none => (cr, 0)

def postRulesDb (kind : DbKind) (ext : RuleExternals) (rawsql : Option Bytes) (cr : ConfRule)
    (params : List (Option Bytes × Json)) : Option (ConfRule × RestCode) :=
  (dbSchema.fill (ext.ruleDbInit kind) params).bind fun filled =>
    if filled.2 = false then some (cr, .reqParamError)
    else if ext.ruleDbCheck kind filled.1 = false then some (cr, .missingKeyRequestParames)
    else rawsql.bind fun sql =>
      let client := nanomqClientDb kind ext (cr.append ext sql (.db kind (some filled.1)))
      if client.2 = -1 then some (client.1, .reqParamError)
      else some ({ client.1 with option := insert kind.flag client.1.option }, .succeed)

def postRulesMysql := postRulesDb .mysql

def postRulesPostgresql := postRulesDb .postgresql

def postRulesTimescaledb := postRulesDb .timescaledb

def postRulesRepub (ext : RuleExternals) (rawsql : Option Bytes) (cr : ConfRule)
    (params : List (Option Bytes × Json)) : Option (ConfRule × RestCode) :=
  (repubSchema.fillKnown ext.ruleRepubInit params).bind fun p =>
    if p.address = none ∨ p.topic = none then some (cr, .missingKeyRequestParames)
    else if ext.nanoClient cr.rules p = false then some (cr, .missingKeyRequestParames)
    else rawsql.bind fun sql =>
      let appended := cr.append ext sql (.repub (some p))
      some ({ appended with option := insert .rpb appended.option }, .succeed)

def RuleExternals.builds (ext : RuleExternals) : ForwordType → Bool
  | .repub => true
  | .sqlite => ext.sqlite
  | .db kind => ext.supports kind
  | .fdb => false

def postAction (ext : RuleExternals) (rawsql : Option Bytes) (cr : ConfRule) (action : Json) :
    Option (ConfRule × RestCode) :=
  (action.getStringValue (ascii "name")).bind fun name =>
    match (ForwordType.ofName name).filter ext.builds with
    | some .repub => postRulesRepub ext rawsql cr action.params
    | some .sqlite => postRulesSqlite ext rawsql cr action.params
    | some (.db .mysql) => postRulesMysql ext rawsql cr action.params
    | some (.db .postgresql) => postRulesPostgresql ext rawsql cr action.params
    | some (.db .timescaledb) => postRulesTimescaledb ext rawsql cr action.params
    | _ => some (cr, .pluginIsClosed)

def postActions (ext : RuleExternals) (rawsql : Option Bytes) :
    ConfRule → List Json → Option (ConfRule × RestCode)
  | cr, [] => some (cr, .succeed)
  | cr, action :: rest =>
    (postAction ext rawsql cr action).bind fun done =>
      if done.2 = .succeed then postActions ext rawsql done.1 rest else some done

def Json.actions (req : Json) : List Json :=
  ((req.getObjectItem (ascii "actions")).map Json.children).getD []

/-- `post_rules`. The answer shows the last rule of the vector. -/
def postRules (ext : RuleExternals) (cr : ConfRule) (body : Option Json) :
    Option (ConfRule × RuleAnswer) :=
  match body.filter Json.isObject with
  | none => some (cr, .error .reqParamsJsonFormatIllegal)
  | some req =>
    (postActions ext (req.getStringValue (ascii "rawsql")) cr req.actions).bind fun done =>
      if done.2 = .succeed then done.1.rules.getLast?.map fun r => (done.1, .data r.data)
      else some (done.1, .error done.2)

/-! ### What each handler does -/

variable {ext : RuleExternals} {rawsql : Option Bytes} {cr cr' : ConfRule} {rc : RestCode}

/-- A client of a database keeps the new rule, or takes it off again. -/
theorem nanomqClientDb_append (kind : DbKind) (sql : Bytes) (params : Option DbParams) :
    nanomqClientDb kind ext (cr.append ext sql (.db kind params)) =
      if ext.dbConnect kind (newRule ext cr.rules sql (.db kind params)) = false then (cr, -1)
      else (cr.append ext sql (.db kind params), 0) := by
  have hlast : (cr.append ext sql (.db kind params)).rules.getLast? =
      some (newRule ext cr.rules sql (.db kind params)) := List.getLast?_concat
  have hdrop : (cr.append ext sql (.db kind params)).rules.dropLast = cr.rules :=
    List.dropLast_concat
  have htype : (newRule ext cr.rules sql (.db kind params)).action.forwordType = .db kind := rfl
  simp only [nanomqClientDb, hlast, hdrop, htype, true_and]
  rfl

theorem postRulesSqlite_cons {key : Option Bytes} {v : Json} {rest : List (Option Bytes × Json)}
    (h : postRulesSqlite ext rawsql cr ((key, v) :: rest) = some (cr', rc)) :
    ∃ name, key = some name ∧
      ((strcaseEq name (ascii "table") = false ∧
          postRulesSqlite ext rawsql cr rest = some (cr', rc)) ∨
        (strcaseEq name (ascii "table") = true ∧ ∃ table, v.valuestring = some table ∧
          ((sqliteTableExist cr.rules table = true ∧ cr' = cr ∧ rc = .reqParamError) ∨
            (sqliteTableExist cr.rules table = false ∧ ∃ sql, rawsql = some sql ∧
              (((clientSqlite ext (cr.append ext sql (.sqlite table))).result = 1 ∧
                  cr'.rules = cr.rules ∧ cr'.option = cr.option ∧ rc = .pluginIsClosed) ∨
                ((clientSqlite ext (cr.append ext sql (.sqlite table))).result ≠ 1 ∧
                  ∃ rdb, postRulesSqlite ext rawsql
                    { cr.append ext sql (.sqlite table) with rdb := rdb } rest =
                      some (cr', rc))))))) := by
  cases key with
  | none => cases h
  | some name =>
    refine ⟨name, rfl, ?_⟩
    rw [postRulesSqlite] at h
    cases hname : strcaseEq name (ascii "table") with
    | false =>
      rw [hname] at h
      exact Or.inl ⟨rfl, h⟩
    | true =>
      rw [hname, if_pos rfl] at h
      obtain ⟨table, htable, h⟩ := Option.bind_eq_some_iff.mp h
      refine Or.inr ⟨rfl, table, htable, ?_⟩
      cases hexist : sqliteTableExist cr.rules table with
      | true =>
        rw [hexist] at h
        obtain ⟨rfl, rfl⟩ := Prod.mk.inj (Option.some.inj h)
        exact Or.inl ⟨rfl, rfl, rfl⟩
      | false =>
        rw [hexist] at h
        obtain ⟨sql, hsql, h⟩ := Option.bind_eq_some_iff.mp h
        refine Or.inr ⟨rfl, sql, hsql, ?_⟩
        dsimp only at h
        split_ifs at h with hclient
        · obtain ⟨rfl, rfl⟩ := Prod.mk.inj (Option.some.inj h)
          exact Or.inl ⟨hclient, List.dropLast_concat, rfl, rfl⟩
        · exact Or.inr ⟨hclient, _, h⟩

theorem postRulesDb_cases {kind : DbKind} {params : List (Option Bytes × Json)}
    (h : postRulesDb kind ext rawsql cr params = some (cr', rc)) :
    ∃ p known, dbSchema.fill (ext.ruleDbInit kind) params = some (p, known) ∧
      (((known = false ∨ ext.ruleDbCheck kind p = false) ∧ cr' = cr ∧ rc ≠ .succeed) ∨
        (¬(known = false ∨ ext.ruleDbCheck kind p = false) ∧ ∃ sql, rawsql = some sql ∧
          ((ext.dbConnect kind (newRule ext cr.rules sql (.db kind (some p))) = false ∧
              cr' = cr ∧ rc ≠ .succeed) ∨
            (ext.dbConnect kind (newRule ext cr.rules sql (.db kind (some p))) = true ∧
              cr' = { cr.append ext sql (.db kind (some p)) with
                option := insert kind.flag cr.option })))) := by
  obtain ⟨⟨p, known⟩, hfill, h⟩ := Option.bind_eq_some_iff.mp h
  refine ⟨p, known, hfill, ?_⟩
  dsimp only at h
  split_ifs at h with hknown hcheck
  · obtain ⟨rfl, rfl⟩ := Prod.mk.inj (Option.some.inj h)
    exact Or.inl ⟨Or.inl hknown, rfl, by decide⟩
  · obtain ⟨rfl, rfl⟩ := Prod.mk.inj (Option.some.inj h)
    exact Or.inl ⟨Or.inr hcheck, rfl, by decide⟩
  · obtain ⟨sql, hsql, h⟩ := Option.bind_eq_some_iff.mp h
    refine Or.inr ⟨not_or_intro hknown hcheck, sql, hsql, ?_⟩
    rw [nanomqClientDb_append] at h
    cases hconnect : ext.dbConnect kind (newRule ext cr.rules sql (.db kind (some p))) with
    | false =>
      rw [hconnect] at h
      obtain ⟨rfl, rfl⟩ := Prod.mk.inj (Option.some.inj h)
      exact Or.inl ⟨rfl, rfl, by decide⟩
    | true =>
      rw [hconnect] at h
      obtain ⟨rfl, rfl⟩ := Prod.mk.inj (Option.some.inj h)
      exact Or.inr ⟨rfl, rfl⟩

theorem postRulesRepub_cases {params : List (Option Bytes × Json)}
    (h : postRulesRepub ext rawsql cr params = some (cr', rc)) :
    ∃ p, repubSchema.fillKnown ext.ruleRepubInit params = some p ∧
      (((p.address = none ∨ p.topic = none ∨ ext.nanoClient cr.rules p = false) ∧
          cr' = cr ∧ rc ≠ .succeed) ∨
        (¬(p.address = none ∨ p.topic = none ∨ ext.nanoClient cr.rules p = false) ∧
          ∃ sql, cr' = { cr.append ext sql (.repub (some p)) with
            option := insert .rpb cr.option })) := by
  obtain ⟨p, hfill, h⟩ := Option.bind_eq_some_iff.mp h
  refine ⟨p, hfill, ?_⟩
  rw [← or_assoc]
  split_ifs at h with hmissing hclient
  · obtain ⟨rfl, rfl⟩ := Prod.mk.inj (Option.some.inj h)
    exact Or.inl ⟨Or.inl hmissing, rfl, by decide⟩
  · obtain ⟨rfl, rfl⟩ := Prod.mk.inj (Option.some.inj h)
    exact Or.inl ⟨Or.inr hclient, rfl, by decide⟩
  · obtain ⟨sql, -, h⟩ := Option.bind_eq_some_iff.mp h
    obtain ⟨rfl, rfl⟩ := Prod.mk.inj (Option.some.inj h)
    exact Or.inr ⟨not_or_intro hmissing hclient, sql, rfl⟩

theorem postAction_cases {action : Json} (h : postAction ext rawsql cr action = some (cr', rc)) :
    ∃ name, action.getStringValue (ascii "name") = some name ∧
      match (ForwordType.ofName name).filter ext.builds with
      | some .repub => postRulesRepub ext rawsql cr action.params = some (cr', rc)
      | some .sqlite => postRulesSqlite ext rawsql cr action.params = some (cr', rc)
      | some (.db kind) => postRulesDb kind ext rawsql cr action.params = some (cr', rc)
      | _ => cr' = cr ∧ rc = .pluginIsClosed := by
  obtain ⟨name, hname, h⟩ := Option.bind_eq_some_iff.mp h
  refine ⟨name, hname, ?_⟩
  cases htype : (ForwordType.ofName name).filter ext.builds with
  | none =>
    rw [htype] at h
    obtain ⟨rfl, rfl⟩ := Prod.mk.inj (Option.some.inj h)
    exact ⟨rfl, rfl⟩
  | some type =>
    rw [htype] at h
    cases type with
    | repub => exact h
    | sqlite => exact h
    | db kind =>
      cases kind with
      | mysql => exact h
      | postgresql => exact h
      | timescaledb => exact h
    | fdb =>
      obtain ⟨rfl, rfl⟩ := Prod.mk.inj (Option.some.inj h)
      exact ⟨rfl, rfl⟩

end NanoMQ
