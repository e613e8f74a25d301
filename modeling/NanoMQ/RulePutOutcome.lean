import NanoMQ.RuleUpdate

/-!
# What a PUT request leaves

The actions of a PUT request take effect from the first on, as long as they are for the type of the
rule and have no unknown parameter. `ForwordType.taken` are the parameters that get into the rule
this way, and `ForwordType.breaks` says that an unknown one ends the update. `putRules_cases` is
what comes of a whole request.
-/

namespace NanoMQ

open ByteBuffer

/-! ### All actions -/

def ForwordType.taken (type : ForwordType) : List Json → List (Option Bytes × Json)
  | [] => []
  | action :: rest =>
    if action.isFor type then
      if action.params.all type.knows then action.params ++ type.taken rest
      else action.params.takeWhile type.knows
    else []

def ForwordType.breaks (type : ForwordType) : List Json → Bool
  | [] => false
  | action :: rest =>
    action.isFor type && (!action.params.all type.knows || type.breaks rest)

def ForwordType.reached (type : ForwordType) (actions : List Json) : Bool :=
  (actions.head?.map (·.isFor type)).getD false

def ForwordType.fits (type : ForwordType) (actions : List Json) : Bool :=
  actions.all (fun action => action.isFor type && action.params.all type.knows)

variable {rc : RestCode}

section Actions

variable {type : ForwordType} {action : Json} {rest actions : List Json}

theorem ForwordType.fits_cons : type.fits (action :: rest) =
    (action.isFor type && action.params.all type.knows && type.fits rest) := rfl

theorem ForwordType.unreached (h : type.reached actions = false) :
    type.taken actions = [] ∧ type.breaks actions = false := by
  cases actions with
  | nil => exact ⟨rfl, rfl⟩
  | cons action rest =>
    have hfor : action.isFor type = false := h
    simp [taken, breaks, hfor]

theorem ForwordType.taken_of_fits (h : type.fits actions = true) :
    type.taken actions = actions.flatMap Json.params ∧ type.breaks actions = false := by
  induction actions with
  | nil => exact ⟨rfl, rfl⟩
  | cons action rest ih =>
    simp only [fits_cons, Bool.and_eq_true] at h
    obtain ⟨⟨hfor, hknown⟩, hrest⟩ := h
    simp [taken, breaks, hfor, hknown, ih hrest]

theorem ForwordType.reached_of_fits (h : type.fits actions = true) :
    type.reached actions = !actions.isEmpty := by
  cases actions with
  | nil => rfl
  | cons action rest =>
    simp only [fits_cons, Bool.and_eq_true] at h
    exact h.1.1

end Actions

/-- In the end an update stores one action, and it succeeds exactly if every action takes effect. -/
theorem putRulesUpdateAction_spec {target target' : NewRule} {actions : List Json}
    {type : ForwordType} (htype : target.rule.action.forwordType = type)
    (h : putRulesUpdateAction target actions = some (target', rc)) :
    ∃ b, target' = (if type.reached actions then target.store b else target) ∧
      target.rule.action.Becomes (type.breaks actions) (type.taken actions) b ∧
      (rc = .succeed ↔ type.fits actions = true) := by
  induction actions generalizing target with
  | nil =>
    obtain ⟨rfl, rfl⟩ := Prod.mk.inj (Option.some.inj h)
    exact ⟨_, rfl, RuleAction.becomes_nil_iff.mpr rfl, iff_of_true rfl rfl⟩
  | cons action rest ih =>
    obtain ⟨⟨t, code⟩, hfirst, hnext⟩ := Option.bind_eq_some_iff.mp h
    have hreached : type.reached (action :: rest) = action.isFor type := rfl
    rcases putAction_cases htype hfirst with ⟨hfor, rfl, hne⟩ | ⟨hfor, b, rfl, hcode, hbecomes⟩
    · rw [if_neg hne] at hnext
      obtain ⟨rfl, rfl⟩ := Prod.mk.inj (Option.some.inj hnext)
      refine ⟨t.rule.action, by simp [hreached, hfor], ?_,
        by simp [hne, ForwordType.fits_cons, hfor]⟩
      simp only [ForwordType.taken, ForwordType.breaks, hfor]
      exact RuleAction.becomes_nil_iff.mpr rfl
    · cases hknown : action.params.all type.knows with
      | false =>
        have hne : code ≠ .succeed := by
          rw [Ne, hcode, hknown]
          decide
        rw [if_neg hne] at hnext
        obtain ⟨rfl, rfl⟩ := Prod.mk.inj (Option.some.inj hnext)
        refine ⟨b, by simp [hreached, hfor], ?_, by simp [hne, ForwordType.fits_cons, hknown]⟩
        rw [hknown] at hbecomes
        simpa [ForwordType.breaks, ForwordType.taken, hfor, hknown] using hbecomes
      | true =>
        rw [if_pos (hcode.mpr hknown)] at hnext
        -- the first action is written in full, and the rest goes on from there
        have hupdated : target.rule.action.Updated RepubField.stored action.params b := by
          rw [hknown, List.takeWhile_eq_self_iff.mpr (List.all_eq_true.mp hknown)] at hbecomes
          simpa [RuleAction.Becomes] using hbecomes
        have htype' : (target.store b).rule.action.forwordType = type := by
          rw [NewRule.rule_store]
          exact hupdated.same.1.trans htype
        obtain ⟨c, rfl, hc, hsucceed⟩ := ih htype' hnext
        rw [NewRule.rule_store] at hc
        refine ⟨c, ?_, ?_, by simp [hsucceed, ForwordType.fits_cons, hfor, hknown]⟩
        · rw [hreached, hfor, if_pos rfl]
          split_ifs with hrest
          · exact NewRule.store_store hc.forwordType
          · obtain ⟨htaken, hbreaks⟩ := ForwordType.unreached (Bool.eq_false_iff.mpr hrest)
            rw [htaken, hbreaks] at hc
            rw [RuleAction.becomes_nil_iff.mp hc]
        · simpa [ForwordType.breaks, ForwordType.taken, hfor, hknown] using hupdated.becomes hc

/-! ### The whole request -/

section Request

variable {ext : RuleExternals} {cr cr' : ConfRule} {id : ℕ} {body : Option Json} {req : Json}
  {answer : RuleAnswer} {target : NewRule}

def NewRule.finish (target : NewRule) (actions : List Json) (b : RuleAction) : NewRule :=
  if target.rule.action.forwordType.reached actions then target.store b else target

theorem putRestart_rules {cr₁ : ConfRule} {rule : StoredRule}
    (h : putRestart ext cr rule = some cr₁) : cr₁.rules = cr.rules ∧ cr₁.option = cr.option := by
  cases henabled : rule.enabled with
  | false =>
    rw [putRestart, henabled] at h
    obtain rfl := Option.some.inj h
    exact ⟨rfl, rfl⟩
  | true =>
    rw [putRestart, henabled, if_pos rfl] at h
    split at h
    · cases h
    · obtain rfl := Option.some.inj h
      split_ifs <;> exact ⟨rfl, rfl⟩
    · obtain rfl := Option.some.inj h
      exact ⟨rfl, rfl⟩

/-- A request for a rule that was found changes nothing but the rules, and is answered by data
exactly if every action takes effect. -/
theorem putFound_spec {type : ForwordType} (htype : target.rule.action.forwordType = type)
    (h : putFound ext cr req target = some (cr', answer)) :
    ∃ b, target.rule.action.Becomes (type.breaks req.actions) (type.taken req.actions) b ∧
      cr'.rules = (target.finish req.actions b).rules ∧ cr'.option = cr.option ∧
      ((type.fits req.actions = true ∧ answer = .data (target.finish req.actions b).rule.data) ∨
        (type.fits req.actions = false ∧ ∃ code, answer = .error code)) := by
  rw [putFound] at h
  cases hactions : req.getObjectItem (ascii "actions") with
  | none =>
    have hnone : req.actions = [] := by simp [Json.actions, hactions]
    rw [hactions] at h
    obtain ⟨rfl, rfl⟩ := Prod.mk.inj (Option.some.inj h)
    rw [hnone]
    exact ⟨_, RuleAction.becomes_nil_iff.mpr rfl, rfl, rfl, Or.inl ⟨rfl, rfl⟩⟩
  | some actions =>
    have hsome : req.actions = actions.children := by simp [Json.actions, hactions]
    rw [hactions] at h
    obtain ⟨⟨target', rc⟩, hupdate, h⟩ := Option.bind_eq_some_iff.mp h
    obtain ⟨b, hfinish, hbecomes, hsucceed⟩ := putRulesUpdateAction_spec htype hupdate
    rw [hsome]
    have hfinish' : target' = target.finish actions.children b := by
      rw [hfinish, NewRule.finish, htype]
    subst hfinish'
    refine ⟨b, hbecomes, ?_⟩
    dsimp only at h
    split_ifs at h with hcode
    · obtain ⟨cr₁, hrestart, heq⟩ := Option.map_eq_some_iff.mp h
      obtain ⟨rfl, rfl⟩ := Prod.mk.inj heq
      obtain ⟨hrules, hoption⟩ := putRestart_rules hrestart
      exact ⟨hrules, hoption, Or.inl ⟨hsucceed.mp hcode, rfl⟩⟩
    · obtain ⟨rfl, rfl⟩ := Prod.mk.inj (Option.some.inj h)
      have hfits := Bool.eq_false_iff.mpr (mt hsucceed.mpr hcode)
      exact ⟨rfl, rfl, Or.inr ⟨hfits, rc, rfl⟩⟩

theorem putSql_action {before after : List StoredRule} {rule : StoredRule}
    (h : putSql ext id req before rule after = some target) :
    (putEnabled req target).rule.action = rule.action := by
  have hsql : target.rule.action = rule.action := by
    rw [putSql] at h
    split at h
    · obtain ⟨sql, -, rfl⟩ := Option.map_eq_some_iff.mp h
      rfl
    · split_ifs at h
      obtain rfl := Option.some.inj h
      rfl
  rw [putEnabled]
  split
  · rw [NewRule.rule_setEnabled]
    exact hsql
  · exact hsql

/-- A request is refused at once, or it goes to the rule with its id. -/
theorem putRules_cases (h : putRules ext cr id body = some (cr', answer)) :
    (cr' = cr ∧ (∃ code, answer = .error code) ∧
      ∀ req, body.filter Json.isObject = some req → findRule id cr.rules = none) ∨
    ∃ req before rule after target b, body.filter Json.isObject = some req ∧
      findRule id cr.rules = some (before, rule, after) ∧
      putSql ext id req before rule after = some target ∧
      rule.action.Becomes (rule.action.forwordType.breaks req.actions)
        (rule.action.forwordType.taken req.actions) b ∧
      cr'.rules = ((putEnabled req target).finish req.actions b).rules ∧
      cr'.option = cr.option ∧
      ((rule.action.forwordType.fits req.actions = true ∧
          answer = .data ((putEnabled req target).finish req.actions b).rule.data) ∨
        (rule.action.forwordType.fits req.actions = false ∧ ∃ code, answer = .error code)) := by
  rw [putRules] at h
  split at h
  next hbody =>
    obtain ⟨rfl, rfl⟩ := Prod.mk.inj (Option.some.inj h)
    exact Or.inl ⟨rfl, ⟨_, rfl⟩, by simp [hbody]⟩
  next req hbody =>
    split at h
    next hfound =>
      obtain ⟨rfl, rfl⟩ := Prod.mk.inj (Option.some.inj h)
      exact Or.inl ⟨rfl, ⟨_, rfl⟩, fun _ _ => hfound⟩
    next before rule after hfound =>
      obtain ⟨target, htarget, h⟩ := Option.bind_eq_some_iff.mp h
      have haction := putSql_action htarget
      obtain ⟨b, hbecomes, hdone⟩ := putFound_spec (congrArg RuleAction.forwordType haction) h
      rw [haction] at hbecomes
      exact Or.inr ⟨req, before, rule, after, target, b, hbody, hfound, htarget, hbecomes, hdone⟩

/-! ### The vector after a request -/

def Json.enabled (req : Json) : Option Bool :=
  (req.getObjectItem (ascii "enabled")).map Json.isTrue

def RuleAction.copied (a : RuleAction) (actions : List Json) : Bool :=
  a.forwordType = .sqlite && ForwordType.sqlite.reached actions

variable {before after : List StoredRule} {rule last stale : StoredRule} {actions : List Json}
  {a b : RuleAction}

theorem RuleAction.copied_eq_false (h : a.forwordType ≠ .sqlite) : a.copied actions = false := by
  simp [copied, h]

theorem RuleAction.copied_of_unreached (h : a.forwordType.reached actions = false) :
    a.copied actions = false := by
  by_cases hsqlite : a.forwordType = .sqlite
  · rw [hsqlite] at h
    simp [copied, h]
  · exact copied_eq_false hsqlite

theorem RuleAction.Becomes.eq_of_unreached
    (h : a.Becomes (a.forwordType.breaks actions) (a.forwordType.taken actions) b)
    (hreached : a.forwordType.reached actions = false) : b = a := by
  obtain ⟨htaken, hbreaks⟩ := ForwordType.unreached hreached
  rw [htaken, hbreaks] at h
  exact RuleAction.becomes_nil_iff.mp h

namespace NewRule

theorem finish_inPlace (hb : rule.action.Becomes (rule.action.forwordType.breaks actions)
      (rule.action.forwordType.taken actions) b) :
    (inPlace before rule after).finish actions b = inPlace before { rule with action := b }
      (if rule.action.copied actions && !after.isEmpty then
        after.dropLast ++ [{ rule with action := b }] else after) := by
  have hrule : (inPlace before rule after).rule = rule := rfl
  rw [finish, hrule]
  cases hreached : rule.action.forwordType.reached actions with
  | false =>
    rw [hb.eq_of_unreached hreached, RuleAction.copied_of_unreached hreached]
    rfl
  | true =>
    by_cases hsqlite : rule.action.forwordType = .sqlite
    · obtain ⟨table, rfl⟩ := RuleAction.eq_sqlite (hb.forwordType.trans hsqlite)
      rw [hsqlite] at hreached
      have hcopied : rule.action.copied actions = true := by
        simp [RuleAction.copied, hsqlite, hreached]
      rw [hcopied, if_pos rfl]
      cases after <;> rfl
    · rw [RuleAction.copied_eq_false hsqlite, if_pos rfl, store_of_ne (hb.forwordType ▸ hsqlite)]
      rfl

theorem finish_behindEnd (hlast : last.action = stale.action)
    (hb : stale.action.Becomes (stale.action.forwordType.breaks actions)
      (stale.action.forwordType.taken actions) b) :
    (behindEnd before last stale).finish actions b = behindEnd before
      (if stale.action.copied actions then { stale with action := b }
        else { last with action := b }) { stale with action := b } := by
  have hrule : (behindEnd before last stale).rule = stale := rfl
  rw [finish, hrule]
  cases hreached : stale.action.forwordType.reached actions with
  | false =>
    have hsame : { last with action := stale.action } = last := by rw [← hlast]
    rw [hb.eq_of_unreached hreached, RuleAction.copied_of_unreached hreached, hsame]
    rfl
  | true =>
    by_cases hsqlite : stale.action.forwordType = .sqlite
    · obtain ⟨table, rfl⟩ := RuleAction.eq_sqlite (hb.forwordType.trans hsqlite)
      rw [hsqlite] at hreached
      have hcopied : stale.action.copied actions = true := by
        simp [RuleAction.copied, hsqlite, hreached]
      rw [hcopied, if_pos rfl]
      rfl
    · rw [RuleAction.copied_eq_false hsqlite, if_pos rfl, store_of_ne (hb.forwordType ▸ hsqlite)]
      rfl

end NewRule

/-- Where the rule stood before the request it stands after it, unless the request has SQL text:
then it is the last one. -/
theorem putTarget_cases (htarget : putSql ext id req before rule after = some target)
    (hb : rule.action.Becomes (rule.action.forwordType.breaks req.actions)
      (rule.action.forwordType.taken req.actions) b) :
    (req.getObjectItem (ascii "rawsql") = none ∧
      ∃ r : StoredRule, r = { rule with enabled := req.enabled.getD rule.enabled, action := b } ∧
        (putEnabled req target).finish req.actions b = .inPlace before r
          (if rule.action.copied req.actions && !after.isEmpty then after.dropLast ++ [r]
            else after)) ∨
    ∃ sql, ∃ r : StoredRule, req.getObjectItem (ascii "rawsql") = some (.string sql) ∧
      r = ⟨id, sql, true, b, ext.ruleSqlParse sql⟩ ∧
      (putEnabled req target).finish req.actions b = .behindEnd (before ++ after)
        (if rule.action.copied req.actions then { r with enabled := req.enabled.getD true } else r)
        { r with enabled := req.enabled.getD true } := by
  rw [putSql] at htarget
  cases hitem : req.getObjectItem (ascii "rawsql") with
  | none =>
    rw [hitem] at htarget
    dsimp only at htarget
    split_ifs at htarget
    obtain rfl := Option.some.inj htarget
    have henabled : putEnabled req (.inPlace before rule after) =
        .inPlace before { rule with enabled := req.enabled.getD rule.enabled } after := by
      rw [putEnabled, Json.enabled]
      cases req.getObjectItem (ascii "enabled") <;> rfl
    refine Or.inl ⟨rfl, _, rfl, ?_⟩
    rw [henabled]
    exact NewRule.finish_inPlace hb
  | some item =>
    rw [hitem] at htarget
    obtain ⟨sql, hsql, rfl⟩ := Option.map_eq_some_iff.mp htarget
    obtain rfl := Json.eq_of_valuestring hsql
    have henabled : ∀ new : StoredRule, new.enabled = true →
        putEnabled req (.behindEnd (before ++ after) new new) = .behindEnd (before ++ after) new
          { new with enabled := req.enabled.getD true } := by
      intro new hnew
      rw [putEnabled, Json.enabled]
      cases req.getObjectItem (ascii "enabled") with
      | none =>
        cases new
        cases hnew
        rfl
      | some item => rfl
    refine Or.inr ⟨sql, _, rfl, rfl, ?_⟩
    rw [henabled _ rfl]
    exact NewRule.finish_behindEnd rfl hb

end Request

end NanoMQ
