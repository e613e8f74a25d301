import NanoMQ.RuleGrowth

/-!
# Refused POST requests

A POST request that ends in an error has changed nothing only if the first action that could add a
rule was refused at once. `Refused` says what refuses an action: for a `sqlite` action it is the
first of its tables that counts. A `sqlite` action without a table adds no rule, but it sets its
flag.
-/

namespace NanoMQ

open ByteBuffer

def Unchanged (cr cr' : ConfRule) : Prop :=
  cr'.rules.map StoredRule.shown = cr.rules.map StoredRule.shown ∧ cr'.option = cr.option

def RuleExternals.typeOf (ext : RuleExternals) (action : Json) : Option ForwordType :=
  ((action.getStringValue (ascii "name")).bind ForwordType.ofName).filter ext.builds

def firstTable (params : List (Option Bytes × Json)) : Option Json :=
  (params.find? (fun param => param.1.any (fun key => strcaseEq key (ascii "table")))).map Prod.snd

def RuleExternals.noTable (ext : RuleExternals) (action : Json) : Bool :=
  ext.typeOf action = some .sqlite && (firstTable action.params).isNone

/-- The action is refused before it adds a rule that stays. -/
def Refused (ext : RuleExternals) (rawsql : Option Bytes) (cr : ConfRule) (action : Json) : Prop :=
  match ext.typeOf action with
  | some .repub => ∀ p, repubSchema.fillKnown ext.ruleRepubInit action.params = some p →
      p.address = none ∨ p.topic = none ∨ ext.nanoClient cr.rules p = false
  | some .sqlite => ∀ table, (firstTable action.params).bind Json.valuestring = some table →
      sqliteTableExist cr.rules table = true ∨ ∀ sql, rawsql = some sql →
        (clientSqlite ext (cr.append ext sql (.sqlite table))).result = 1
  | some (.db kind) => ∀ p known,
      dbSchema.fill (ext.ruleDbInit kind) action.params = some (p, known) → known = false ∨
        ext.ruleDbCheck kind p = false ∨ ∀ sql, rawsql = some sql →
          ext.dbConnect kind (newRule ext cr.rules sql (.db kind (some p))) = false
  | _ => True

/-- The first action with something to add is refused, and no flag is set before it. -/
def RefusedAtOnce (ext : RuleExternals) (rawsql : Option Bytes) (cr : ConfRule) :
    List Json → Prop
  | [] => True
  | action :: rest =>
    if ext.noTable action then .sdb ∈ cr.option ∧ RefusedAtOnce ext rawsql cr rest
    else Refused ext rawsql cr action

variable {ext : RuleExternals} {rawsql : Option Bytes} {cr cr' : ConfRule} {rc : RestCode}

theorem Unchanged.refl (cr : ConfRule) : Unchanged cr cr := ⟨rfl, rfl⟩

theorem Unchanged.length (h : Unchanged cr cr') : cr'.rules.length = cr.rules.length := by
  simpa using congrArg List.length h.1

/-- What happens to an action that has something to add: it is refused and leaves everything, or it
leaves a rule. -/
def Settles (refused : Prop) (cr cr' : ConfRule) (rc : RestCode) : Prop :=
  (refused ∧ rc ≠ .succeed ∧ Unchanged cr cr') ∨ (¬refused ∧ cr.rules.length < cr'.rules.length)

theorem length_append (sql : Bytes) (action : RuleAction) :
    cr.rules.length < (cr.append ext sql action).rules.length := by
  simp [ConfRule.append]

theorem postRulesRepub_settles {params : List (Option Bytes × Json)}
    (h : postRulesRepub ext rawsql cr params = some (cr', rc)) :
    Settles (∀ p, repubSchema.fillKnown ext.ruleRepubInit params = some p →
      p.address = none ∨ p.topic = none ∨ ext.nanoClient cr.rules p = false) cr cr' rc := by
  obtain ⟨p, hp, ⟨hrefused, rfl, hcode⟩ | ⟨hnot, sql, rfl⟩⟩ := postRulesRepub_cases h
  · refine Or.inl ⟨?_, hcode, Unchanged.refl _⟩
    intro q hq
    obtain rfl := Option.some.inj (hp.symm.trans hq)
    exact hrefused
  · exact Or.inr ⟨fun hrefused => hnot (hrefused p hp), length_append sql _⟩

theorem postRulesDb_settles {kind : DbKind} {params : List (Option Bytes × Json)}
    (h : postRulesDb kind ext rawsql cr params = some (cr', rc)) :
    Settles (∀ p known, dbSchema.fill (ext.ruleDbInit kind) params = some (p, known) →
      known = false ∨ ext.ruleDbCheck kind p = false ∨ ∀ sql, rawsql = some sql →
        ext.dbConnect kind (newRule ext cr.rules sql (.db kind (some p))) = false) cr cr' rc := by
  obtain ⟨p, known, hp, hcases⟩ := postRulesDb_cases h
  have honly : ∀ {q known'}, dbSchema.fill (ext.ruleDbInit kind) params = some (q, known') →
      p = q ∧ known = known' := fun hq => Prod.mk.inj (Option.some.inj (hp.symm.trans hq))
  rcases hcases with ⟨hbad, rfl, hcode⟩ |
    ⟨hgood, sql, hsql, ⟨hconnect, rfl, hcode⟩ | ⟨hconnect, rfl⟩⟩
  · refine Or.inl ⟨?_, hcode, Unchanged.refl _⟩
    intro q known' hq
    obtain ⟨rfl, rfl⟩ := honly hq
    exact hbad.imp_right Or.inl
  · refine Or.inl ⟨?_, hcode, Unchanged.refl _⟩
    intro q known' hq
    obtain ⟨rfl, rfl⟩ := honly hq
    refine Or.inr (Or.inr fun sql' hsql' => ?_)
    obtain rfl := Option.some.inj (hsql.symm.trans hsql')
    exact hconnect
  · refine Or.inr ⟨?_, length_append sql _⟩
    intro hrefused
    rcases hrefused p known hp with hbad | hbad | hbad
    · exact hgood (Or.inl hbad)
    · exact hgood (Or.inr hbad)
    · rw [hbad sql hsql] at hconnect
      cases hconnect

theorem firstTable_cons {name : Bytes} {v : Json} {rest : List (Option Bytes × Json)} :
    firstTable ((some name, v) :: rest) =
      if strcaseEq name (ascii "table") then some v else firstTable rest := by
  cases hname : strcaseEq name (ascii "table") <;> simp [firstTable, hname]

/-- A table that is there or cannot be created refuses the action, and any other leaves its rule. -/
theorem postRulesSqlite_settles {params : List (Option Bytes × Json)} {v : Json}
    (hfirst : firstTable params = some v)
    (h : postRulesSqlite ext rawsql cr params = some (cr', rc)) :
    Settles (∀ table, v.valuestring = some table →
      sqliteTableExist cr.rules table = true ∨ ∀ sql, rawsql = some sql →
        (clientSqlite ext (cr.append ext sql (.sqlite table))).result = 1) cr cr' rc := by
  induction params with
  | nil => cases hfirst
  | cons param rest ih =>
    obtain ⟨key, w⟩ := param
    obtain ⟨name, rfl, ⟨hother, hrest⟩ | ⟨hname, table, htable, hcases⟩⟩ := postRulesSqlite_cons h
    · rw [firstTable_cons, hother] at hfirst
      exact ih hfirst hrest
    · rw [firstTable_cons, hname, if_pos rfl] at hfirst
      obtain rfl := Option.some.inj hfirst
      have honly : ∀ {table'}, w.valuestring = some table' → table = table' :=
        fun htable' => Option.some.inj (htable.symm.trans htable')
      rcases hcases with ⟨hexist, rfl, rfl⟩ | ⟨hexist, sql, hsql, hcases⟩
      · refine Or.inl ⟨fun table' htable' => ?_, by decide, Unchanged.refl _⟩
        obtain rfl := honly htable'
        exact Or.inl hexist
      · rcases hcases with ⟨hclient, hrules, hoption, rfl⟩ | ⟨hclient, rdb, hrest⟩
        · refine Or.inl ⟨fun table' htable' => Or.inr fun sql' hsql' => ?_, by decide,
            congrArg (List.map StoredRule.shown) hrules, hoption⟩
          obtain rfl := honly htable'
          obtain rfl := Option.some.inj (hsql.symm.trans hsql')
          exact hclient
        · refine Or.inr ⟨?_, ?_⟩
          · intro hrefused
            rcases hrefused table htable with h | h
            · rw [h] at hexist
              cases hexist
            · exact hclient (h sql hsql)
          · exact (length_append sql _).trans_le (postRulesSqlite_grown hrest).rules.length_le

theorem postRulesSqlite_noTable {params : List (Option Bytes × Json)}
    (hfirst : firstTable params = none)
    (h : postRulesSqlite ext rawsql cr params = some (cr', rc)) :
    cr' = { cr with option := insert .sdb cr.option } ∧ rc = .succeed := by
  induction params with
  | nil =>
    obtain ⟨rfl, rfl⟩ := Prod.mk.inj (Option.some.inj h)
    exact ⟨rfl, rfl⟩
  | cons param rest ih =>
    obtain ⟨key, w⟩ := param
    obtain ⟨name, rfl, ⟨hother, hrest⟩ | ⟨hname, -⟩⟩ := postRulesSqlite_cons h
    · rw [firstTable_cons, hother] at hfirst
      exact ih hfirst hrest
    · rw [firstTable_cons, hname] at hfirst
      cases hfirst

theorem postAction_noTable {action : Json} (hidle : ext.noTable action = true)
    (h : postAction ext rawsql cr action = some (cr', rc)) :
    cr' = { cr with option := insert .sdb cr.option } ∧ rc = .succeed := by
  obtain ⟨name, hname, h⟩ := postAction_cases h
  rw [RuleExternals.noTable, Bool.and_eq_true, decide_eq_true_iff, Option.isNone_iff_eq_none,
    RuleExternals.typeOf, hname, Option.bind_some] at hidle
  rw [hidle.1] at h
  exact postRulesSqlite_noTable hidle.2 h

theorem postAction_settles {action : Json} (hidle : ext.noTable action = false)
    (h : postAction ext rawsql cr action = some (cr', rc)) :
    Settles (Refused ext rawsql cr action) cr cr' rc := by
  obtain ⟨name, hname, h⟩ := postAction_cases h
  have htype : ext.typeOf action = (ForwordType.ofName name).filter ext.builds := by
    rw [RuleExternals.typeOf, hname, Option.bind_some]
  rw [RuleExternals.noTable, htype] at hidle
  rw [Refused, htype]
  cases hfilter : (ForwordType.ofName name).filter ext.builds with
  | none =>
    rw [hfilter] at h
    obtain ⟨rfl, rfl⟩ := h
    exact Or.inl ⟨trivial, by decide, Unchanged.refl _⟩
  | some type =>
    rw [hfilter] at h hidle
    cases type with
    | repub => exact postRulesRepub_settles h
    | sqlite =>
      cases hfirst : firstTable action.params with
      | none =>
        rw [hfirst] at hidle
        exact absurd hidle (by decide)
      | some v =>
        exact postRulesSqlite_settles hfirst h
    | db kind => exact postRulesDb_settles h
    | fdb =>
      obtain ⟨rfl, rfl⟩ := h
      exact Or.inl ⟨trivial, by decide, Unchanged.refl _⟩

/-- All actions, if they end in an error. -/
theorem postActions_unchanged_iff {actions : List Json}
    (h : postActions ext rawsql cr actions = some (cr', rc)) (hrc : rc ≠ .succeed) :
    Unchanged cr cr' ↔ RefusedAtOnce ext rawsql cr actions := by
  induction actions with
  | nil =>
    obtain ⟨-, rfl⟩ := Prod.mk.inj (Option.some.inj h)
    exact absurd rfl hrc
  | cons action rest ih =>
    obtain ⟨⟨cr₁, rc₁⟩, hfirst, hnext⟩ := Option.bind_eq_some_iff.mp h
    dsimp only at hnext
    rw [RefusedAtOnce]
    cases hidle : ext.noTable action with
    | true =>
      obtain ⟨rfl, rfl⟩ := postAction_noTable hidle hfirst
      rw [if_pos rfl] at hnext ⊢
      by_cases hflag : RuleEng.sdb ∈ cr.option
      · rw [Finset.insert_eq_of_mem hflag] at hnext
        rw [and_iff_right hflag]
        exact ih hnext
      · refine iff_of_false ?_ (fun h => hflag h.1)
        intro hunchanged
        apply hflag
        rw [← hunchanged.2]
        exact (postActions_grown hnext).option (Finset.mem_insert_self _ _)
    | false =>
      rw [if_neg Bool.false_ne_true]
      rcases postAction_settles hidle hfirst with ⟨hrefused, hcode, hunchanged⟩ | ⟨hnot, hlonger⟩
      · rw [if_neg hcode] at hnext
        obtain ⟨rfl, -⟩ := Prod.mk.inj (Option.some.inj hnext)
        exact iff_of_true hunchanged hrefused
      · refine iff_of_false ?_ hnot
        intro hunchanged
        have hlength : cr₁.rules.length ≤ cr'.rules.length := by
          split_ifs at hnext
          · exact (postActions_grown hnext).rules.length_le
          · obtain ⟨rfl, -⟩ := Prod.mk.inj (Option.some.inj hnext)
            exact le_rfl
        have hsame := hunchanged.length
        omega

end NanoMQ
