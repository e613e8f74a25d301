import NanoMQ.GuardedRun
import NanoMQ.RuleGrowth
import NanoMQ.RulePutOutcome

/-!
# The identity of rules

Over a run of requests the ids of the rules stay distinct, and a request that addresses one rule
leaves the others alone. The exception is a PUT request without `rawsql` that gives an action to a
`sqlite` rule: this rule is copied over the last rule of the vector, which is lost if it is another
one. A request on which the source would go through a null or released pointer ends a run.
-/

namespace NanoMQ

open ByteBuffer GuardedRun

inductive RuleRequest
  | post (ext : RuleExternals) (body : Option Json)
  | put (ext : RuleExternals) (id : ℕ) (body : Option Json)
  | delete (id : ℕ)

def handleRules (cr : ConfRule) : RuleRequest → Option (ConfRule × RuleAnswer)
  | .post ext body => postRules ext cr body
  | .put ext id body => putRules ext cr id body
  | .delete id => deleteRules cr id

def rulesStep (cr : ConfRule) (req : RuleRequest) : Option ConfRule :=
  (handleRules cr req).map Prod.fst

def RuleRequest.id : RuleRequest → Option ℕ
  | .post _ _ => none
  | .put _ id _ => some id
  | .delete id => some id

def LeavesOthers (cr : ConfRule) (req : RuleRequest) (cr' : ConfRule) : Prop :=
  ∀ id, req.id = some id →
    cr'.rules.filter (fun r => r.ruleId ≠ id) = cr.rules.filter (fun r => r.ruleId ≠ id)

/-- The request copies the rule that it addresses over another one. -/
def OverwritesLast (cr : ConfRule) : RuleRequest → Prop
  | .put _ id (some req) =>
    req.getObjectItem (ascii "rawsql") = none ∧ ForwordType.sqlite.reached req.actions = true ∧
      ∃ before rule after, cr.rules = before ++ rule :: after ∧ rule.ruleId = id ∧
        rule.action.forwordType = .sqlite ∧ after ≠ []
  | _ => False

namespace NewRule

variable {target : NewRule} {id : ℕ} {a : RuleAction}

def About (id : ℕ) : NewRule → Prop
  | inPlace _ rule _ => rule.ruleId = id
  | behindEnd _ last stale => last.ruleId = id ∧ stale.ruleId = id

def AtEnd : NewRule → Prop
  | inPlace _ _ after => after = []
  | behindEnd _ _ _ => True

theorem About.ids (h : target.About id) :
    (target.rules.map StoredRule.ruleId).Perm (id :: target.others.map StoredRule.ruleId) := by
  cases target with
  | inPlace before rule after =>
    obtain rfl : rule.ruleId = id := h
    have hperm : (before ++ rule :: after).Perm (rule :: (before ++ after)) := List.perm_middle
    exact hperm.map StoredRule.ruleId
  | behindEnd before last stale =>
    obtain ⟨rfl, -⟩ := h
    have hperm : (before ++ [last]).Perm (last :: before) := List.perm_append_singleton last before
    exact hperm.map StoredRule.ruleId

theorem About.filter (h : target.About id) :
    target.rules.filter (fun r => r.ruleId ≠ id) =
      target.others.filter (fun r => r.ruleId ≠ id) := by
  cases target with
  | inPlace before rule after =>
    have hrule : rule.ruleId = id := h
    simp [rules, others, hrule]
  | behindEnd before last stale => simp [rules, others, h.1]

theorem About.setEnabled (h : target.About id) (e : Bool) : (target.setEnabled e).About id := by
  cases target <;> exact h

theorem About.store (h : target.About id) : (target.store a).About id := by
  cases target with
  | inPlace before rule after => cases a <;> exact h
  | behindEnd before last stale =>
    cases a with
    | sqlite table => exact ⟨h.2, h.2⟩
    | _ => exact h

theorem others_setEnabled (e : Bool) : (target.setEnabled e).others = target.others := by
  cases target <;> rfl

/-- Only the copy over the last slot can reach another rule. -/
theorem others_store (h : a.forwordType = .sqlite → target.AtEnd) :
    (target.store a).others = target.others := by
  by_cases hsqlite : a.forwordType = .sqlite
  · obtain ⟨table, rfl⟩ := RuleAction.eq_sqlite hsqlite
    cases target with
    | inPlace before rule after =>
      obtain rfl : after = [] := h rfl
      rfl
    | behindEnd before last stale => rfl
  · rw [store_of_ne hsqlite]
    cases target <;> rfl

end NewRule

section Put

variable {ext : RuleExternals} {cr cr' : ConfRule} {id : ℕ} {req : Json} {target : NewRule}
  {before after : List StoredRule} {rule : StoredRule}

theorem putSql_about (hrule : rule.ruleId = id)
    (h : putSql ext id req before rule after = some target) :
    (putEnabled req target).About id ∧ (putEnabled req target).others = before ++ after := by
  have hsql : target.About id ∧ target.others = before ++ after := by
    rw [putSql] at h
    split at h
    · obtain ⟨sql, -, rfl⟩ := Option.map_eq_some_iff.mp h
      exact ⟨⟨rfl, rfl⟩, rfl⟩
    · split_ifs at h
      obtain rfl := Option.some.inj h
      exact ⟨hrule, rfl⟩
  rw [putEnabled]
  split
  · exact ⟨hsql.1.setEnabled _, (NewRule.others_setEnabled _).trans hsql.2⟩
  · exact hsql

theorem putSql_atEnd (hlast : req.getObjectItem (ascii "rawsql") = none → after = [])
    (h : putSql ext id req before rule after = some target) : (putEnabled req target).AtEnd := by
  have hsql : target.AtEnd := by
    rw [putSql] at h
    split at h
    · obtain ⟨sql, -, rfl⟩ := Option.map_eq_some_iff.mp h
      trivial
    next hnone =>
      split_ifs at h
      obtain rfl := Option.some.inj h
      exact hlast hnone
  rw [putEnabled]
  split
  · cases target <;> exact hsql
  · exact hsql

theorem leaves_of_about (hdistinct : cr.Distinct) (hcr : cr.rules = before ++ rule :: after)
    (hrule : rule.ruleId = id) (habout : target.About id)
    (hothers : target.others = before ++ after) (hcr' : cr'.rules = target.rules) :
    cr'.Distinct ∧ cr'.rules.filter (fun r => r.ruleId ≠ id) =
      cr.rules.filter (fun r => r.ruleId ≠ id) := by
  have hold : (NewRule.inPlace before rule after).About id := hrule
  have hids := habout.ids
  rw [hothers] at hids
  have hids' := hold.ids
  constructor
  · rw [ConfRule.Distinct, hcr']
    rw [ConfRule.Distinct, hcr] at hdistinct
    exact (hids.trans hids'.symm).nodup_iff.mpr hdistinct
  · rw [hcr', hcr, habout.filter, hothers]
    exact hold.filter.symm

theorem putRules_leaves {body : Option Json} {answer : RuleAnswer} (hdistinct : cr.Distinct)
    (hsafe : ¬OverwritesLast cr (.put ext id body))
    (h : putRules ext cr id body = some (cr', answer)) :
    cr'.Distinct ∧ cr'.rules.filter (fun r => r.ruleId ≠ id) =
      cr.rules.filter (fun r => r.ruleId ≠ id) := by
  rcases putRules_cases h with ⟨rfl, -, -⟩ |
    ⟨req, before, rule, after, target, b, hbody, hfound, htarget, hbecomes, hrules, -, -⟩
  · exact ⟨hdistinct, rfl⟩
  · obtain ⟨hcr, hrule, -⟩ := findRule_eq_some hfound
    obtain ⟨habout, hothers⟩ := putSql_about hrule htarget
    obtain ⟨rfl, -⟩ := Option.filter_eq_some_iff.mp hbody
    have haction := putSql_action htarget
    -- what is left to see is that finishing the request reaches no other rule
    have hfinish : ((putEnabled req target).finish req.actions b).About id ∧
        ((putEnabled req target).finish req.actions b).others = before ++ after := by
      rw [NewRule.finish, haction]
      split_ifs with hreached
      · refine ⟨habout.store, (NewRule.others_store ?_).trans hothers⟩
        intro hsqlite
        rw [hbecomes.forwordType] at hsqlite
        apply putSql_atEnd _ htarget
        intro hnone
        by_contra hafter
        rw [hsqlite] at hreached
        exact hsafe ⟨hnone, hreached, before, rule, after, hcr, hrule, hsqlite, hafter⟩
      · exact ⟨habout, hothers⟩
    exact leaves_of_about hdistinct hcr hrule hfinish.1 hfinish.2 hrules

end Put

theorem deleteRules_leaves {cr cr' : ConfRule} {id : ℕ} {answer : RuleAnswer}
    (hdistinct : cr.Distinct) (h : deleteRules cr id = some (cr', answer)) :
    cr'.Distinct ∧ cr'.rules.filter (fun r => r.ruleId ≠ id) =
      cr.rules.filter (fun r => r.ruleId ≠ id) := by
  rw [deleteRules] at h
  split at h
  next =>
    obtain ⟨rfl, -⟩ := Prod.mk.inj (Option.some.inj h)
    exact ⟨hdistinct, rfl⟩
  next before rule after hfound =>
    split_ifs at h
    obtain ⟨rfl, -⟩ := Prod.mk.inj (Option.some.inj h)
    obtain ⟨hcr, hrule, -⟩ := findRule_eq_some hfound
    constructor
    · rw [ConfRule.Distinct, hcr, List.map_append, List.map_cons] at hdistinct
      rw [ConfRule.Distinct, List.map_append]
      exact hdistinct.sublist (List.Sublist.append_left (List.sublist_cons_self _ _) _)
    · simp [hcr, hrule]

/-- One request, if it does not copy a rule over another one. -/
theorem rulesStep_keeps {cr cr' : ConfRule} {req : RuleRequest} (hsafe : ¬OverwritesLast cr req)
    (hdistinct : cr.Distinct) (h : rulesStep cr req = some cr') :
    cr'.Distinct ∧ LeavesOthers cr req cr' := by
  obtain ⟨⟨cr₁, answer⟩, hhandle, rfl⟩ := Option.map_eq_some_iff.mp h
  cases req with
  | post ext body => exact ⟨(postRules_grown hhandle).distinct hdistinct, nofun⟩
  | put ext id body =>
    obtain ⟨hids, hothers⟩ := putRules_leaves hdistinct hsafe hhandle
    refine ⟨hids, ?_⟩
    rintro _ ⟨⟩
    exact hothers
  | delete id =>
    obtain ⟨hids, hothers⟩ := deleteRules_leaves hdistinct hhandle
    refine ⟨hids, ?_⟩
    rintro _ ⟨⟩
    exact hothers

def ConfRule.empty : ConfRule := ⟨[], ∅, false⟩

/-- In a run from an empty vector in which no rule is copied over another one, ids are distinct in
every state and every PUT and DELETE request leaves the other rules as they are. -/
theorem rule_identity (reqs : List RuleRequest)
    (h : AllSteps rulesStep (fun cr req => ¬OverwritesLast cr req) .empty reqs) :
    Throughout rulesStep ConfRule.Distinct LeavesOthers .empty reqs := by
  apply throughout_of_allSteps _ h
  · exact List.nodup_nil
  · intro cr req cr' hsafe hdistinct hstep
    exact rulesStep_keeps hsafe hdistinct hstep

def nextRuleId : List StoredRule → ℕ
  | [] => 1
  | r :: rules => r.ruleId + nextRuleId rules

theorem nextRuleId_fresh (rules : List StoredRule) :
    nextRuleId rules ≠ 0 ∧ ∀ r ∈ rules, r.ruleId ≠ nextRuleId rules := by
  have hbound : nextRuleId rules ≠ 0 ∧ ∀ r ∈ rules, r.ruleId < nextRuleId rules := by
    induction rules with
    | nil => exact ⟨Nat.one_ne_zero, fun r hr => absurd hr List.not_mem_nil⟩
    | cons q rules ih =>
      obtain ⟨hpos, hrules⟩ := ih
      rw [nextRuleId, List.forall_mem_cons]
      refine ⟨by omega, by omega, fun r hr => ?_⟩
      have hr := hrules r hr
      omega
  exact ⟨hbound.1, fun r hr => (hbound.2 r hr).ne⟩

def plainExternals : RuleExternals where
  sqlite := true
  supports := fun _ => true
  ruleSqlParse := fun _ =>
    ⟨[], none, fun _ => .none, fun _ => false, false, fun _ => none, []⟩
  ruleGenerateRuleId := nextRuleId
  ruleRepubInit := ⟨none, none, 4, 60, none, none, none, true⟩
  ruleDbInit := fun _ => ⟨none, none, none, none⟩
  ruleDbCheck := fun _ p =>
    p.table.isSome && p.username.isSome && p.password.isSome && p.host.isSome
  nanoClient := fun _ _ => true
  dbConnect := fun _ _ => true
  sqliteOpen := true
  sqliteExec := fun _ _ => true
  fresh := nextRuleId_fresh

def sqliteAction (table : String) : Json :=
  .record [("name", .string (ascii "sqlite")),
    ("params", .record [("table", .string (ascii table))])]

def sqliteBody (table : String) : Json :=
  .record [("rawsql", .string (ascii "SELECT * FROM t")), ("actions", .array [sqliteAction table])]

def replaceRun : List RuleRequest :=
  [.post plainExternals (some (sqliteBody "a")), .post plainExternals (some (sqliteBody "b")),
    .put plainExternals 1 (some (sqliteBody "c")), .delete 2]

theorem rule_identity_replace :
    (replaceRun.foldlM rulesStep .empty).map (fun cr => cr.rules.map StoredRule.shown) =
      some [⟨1, ascii "SELECT * FROM t", true, .sqlite (ascii "c")⟩] ∧
    Throughout rulesStep ConfRule.Distinct LeavesOthers .empty replaceRun := by
  refine ⟨by decide +kernel, rule_identity _ (allSteps_of_forall ?_ _)⟩
  intro cr req hreq
  have hsql : (sqliteBody "c").getObjectItem (ascii "rawsql") ≠ none := nofun
  simp only [replaceRun, List.mem_cons, List.not_mem_nil, or_false] at hreq
  rcases hreq with rfl | rfl | rfl | rfl
  · exact id
  · exact id
  · exact fun h => hsql h.1
  · exact id

def overwriteRun : List RuleRequest :=
  [.post plainExternals (some (sqliteBody "a")), .post plainExternals (some (sqliteBody "b")),
    .put plainExternals 1 (some (.record [("actions", .array [sqliteAction "c"])]))]

/-- The second rule is lost, and there are two rules with the id of the first. -/
theorem put_overwrites_last :
    (overwriteRun.foldlM rulesStep .empty).map (fun cr => cr.rules.map StoredRule.shown) =
      some [⟨1, ascii "SELECT * FROM t", true, .sqlite (ascii "c")⟩,
        ⟨1, ascii "SELECT * FROM t", true, .sqlite (ascii "c")⟩] ∧
    ¬Throughout rulesStep ConfRule.Distinct LeavesOthers .empty overwriteRun := by
  have hrun : (overwriteRun.foldlM rulesStep .empty).map (fun cr => cr.rules.map StoredRule.shown) =
      some [⟨1, ascii "SELECT * FROM t", true, .sqlite (ascii "c")⟩,
        ⟨1, ascii "SELECT * FROM t", true, .sqlite (ascii "c")⟩] := by decide +kernel
  refine ⟨hrun, fun h => ?_⟩
  obtain ⟨cr, hcr, hshown⟩ := Option.map_eq_some_iff.mp hrun
  have hdistinct : (cr.rules.map StoredRule.ruleId).Nodup := h.final hcr
  have hids : cr.rules.map StoredRule.ruleId =
      (cr.rules.map StoredRule.shown).map ShownRule.ruleId := by
    rw [List.map_map]
    rfl
  rw [hids, hshown] at hdistinct
  exact absurd hdistinct (by decide)

end NanoMQ
