import NanoMQ.RulePostRefusal
import NanoMQ.RulePutEffect

/-!
# Failed requests

A request that is answered with an error should leave the rules and the flags as they are. The
handlers undo nothing: an action that fails leaves what the actions before it have done, the SQL
text and `enabled` are already replaced when the actions of a PUT request are looked at, and a
parameter that is unknown leaves the ones before it written, or the data of the rule released.
-/

namespace NanoMQ

open ByteBuffer

/-- The request gives the rule nothing but what it has, up to where its actions fail. The rules
behind it matter where the rule is moved or copied to the end. -/
structure PutIdle (req : Json) (rule : StoredRule) (after : List StoredRule) : Prop where
  action : rule.action.Idle (rule.action.forwordType.taken req.actions)
  unbroken : rule.action.forwordType.breaks req.actions = true → rule.action.forwordType = .sqlite
  inPlace : req.getObjectItem (ascii "rawsql") = none →
    req.enabled.getD rule.enabled = rule.enabled ∧ (rule.action.copied req.actions = true →
      ∀ r, after.getLast? = some r → r.shown = rule.shown)
  replaced : ∀ sql, req.getObjectItem (ascii "rawsql") = some (.string sql) →
    sql = rule.rawSql ∧
      (if rule.action.copied req.actions then req.enabled.getD true else true) = rule.enabled ∧
      ∀ r ∈ after, r.shown = rule.shown

def Atomic (cr : ConfRule) : RuleRequest → Prop
  | .post ext body => ∀ req, body.filter Json.isObject = some req →
      RefusedAtOnce ext (req.getStringValue (ascii "rawsql")) cr req.actions
  | .put _ id body => ∀ req before rule after, body.filter Json.isObject = some req →
      findRule id cr.rules = some (before, rule, after) → PutIdle req rule after
  | .delete _ => True

section Lists

variable {α β : Type*} {f : α → β} {l : List α} {x : α}

/-- A list whose head goes to the end looks the same only if all its elements look the same. -/
theorem map_concat_eq_cons {y : α} :
    (l ++ [y]).map f = f x :: l.map f ↔ f y = f x ∧ ∀ z ∈ l, f z = f x := by
  induction l generalizing x with
  | nil => simp
  | cons z l ih =>
    rw [List.cons_append, List.map_cons, List.map_cons, List.cons_eq_cons, List.forall_mem_cons]
    constructor
    · rintro ⟨hz, hrest⟩
      obtain ⟨hy, hl⟩ := ih.mp hrest
      exact ⟨hy.trans hz, hz, fun w hw => (hl w hw).trans hz⟩
    · rintro ⟨hy, hz, hl⟩
      exact ⟨hz, ih.mpr ⟨hy.trans hz.symm, fun w hw => (hl w hw).trans hz.symm⟩⟩

theorem map_replaceLast_eq {copied : Bool} :
    (if copied && !l.isEmpty then l.dropLast ++ [x] else l).map f = l.map f ↔
      (copied = true → ∀ y, l.getLast? = some y → f y = f x) := by
  cases copied with
  | false => simp
  | true =>
    rcases List.eq_nil_or_concat l with rfl | ⟨l, y, rfl⟩
    · simp
    · simpa using (eq_comm : f x = f y ↔ f y = f x)

end Lists

section Put

variable {ext : RuleExternals} {cr cr' : ConfRule} {before after : List StoredRule}
  {rule r : StoredRule} {req : Json} {b : RuleAction}
  (hcr : cr.rules = before ++ rule :: after) (hoption : cr'.option = cr.option)
  (hb : b = rule.action ↔ rule.action.Idle (rule.action.forwordType.taken req.actions) ∧
    (rule.action.forwordType.breaks req.actions = true → rule.action.forwordType = .sqlite))

include hcr hoption hb

theorem unchanged_inPlace (hnone : req.getObjectItem (ascii "rawsql") = none)
    (hr : r = { rule with enabled := req.enabled.getD rule.enabled, action := b })
    (hrules : cr'.rules = before ++ r ::
      (if rule.action.copied req.actions && !after.isEmpty then after.dropLast ++ [r]
        else after)) :
    Unchanged cr cr' ↔ PutIdle req rule after := by
  have hshown : r.shown = rule.shown ↔
      req.enabled.getD rule.enabled = rule.enabled ∧ b = rule.action := by
    simp [hr, StoredRule.shown]
  have hlast : _ ↔ (rule.action.copied req.actions = true →
      ∀ q, after.getLast? = some q → q.shown = r.shown) := map_replaceLast_eq
  rw [Unchanged, and_iff_left hoption, hrules, hcr, List.map_append, List.map_append,
    List.append_cancel_left_eq, List.map_cons, List.map_cons, List.cons_eq_cons, hlast]
  constructor
  · rintro ⟨hsame, hcopied⟩
    obtain ⟨henabled, haction⟩ := hshown.mp hsame
    refine ⟨(hb.mp haction).1, (hb.mp haction).2, fun _ => ⟨henabled, ?_⟩, ?_⟩
    · exact fun hcopy q hq => (hcopied hcopy q hq).trans hsame
    · intro sql hsql
      rw [hnone] at hsql
      cases hsql
  · intro hidle
    obtain ⟨henabled, hcopied⟩ := hidle.inPlace hnone
    have hsame := hshown.mpr ⟨henabled, hb.mpr ⟨hidle.action, hidle.unbroken⟩⟩
    exact ⟨hsame, fun hcopy q hq => (hcopied hcopy q hq).trans hsame.symm⟩

theorem unchanged_behindEnd {sql : Bytes}
    (hsome : req.getObjectItem (ascii "rawsql") = some (.string sql))
    (hr : r = ⟨rule.ruleId, sql, true, b, ext.ruleSqlParse sql⟩)
    (hrules : cr'.rules = (before ++ after) ++
      [if rule.action.copied req.actions then { r with enabled := req.enabled.getD true }
        else r]) :
    Unchanged cr cr' ↔ PutIdle req rule after := by
  have hlast : ∀ q : StoredRule, q = (if rule.action.copied req.actions then
      { r with enabled := req.enabled.getD true } else r) → (q.shown = rule.shown ↔
        sql = rule.rawSql ∧
          (if rule.action.copied req.actions then req.enabled.getD true else true) =
            rule.enabled ∧ b = rule.action) := by
    rintro _ rfl
    split_ifs <;> simp [hr, StoredRule.shown]
  have hmap : ∀ l : List StoredRule, (before ++ l).map StoredRule.shown =
      before.map StoredRule.shown ++ l.map StoredRule.shown := fun _ => List.map_append
  rw [Unchanged, and_iff_left hoption, hrules, hcr, List.append_assoc, hmap, hmap,
    List.append_cancel_left_eq, List.map_cons, map_concat_eq_cons, hlast _ rfl]
  constructor
  · rintro ⟨⟨hsql, henabled, haction⟩, hafter⟩
    refine ⟨(hb.mp haction).1, (hb.mp haction).2, ?_, ?_⟩
    · intro hnone
      rw [hsome] at hnone
      cases hnone
    · intro sql' hsql'
      rw [hsome] at hsql'
      obtain rfl := Json.string.inj (Option.some.inj hsql')
      exact ⟨hsql, henabled, hafter⟩
  · intro hidle
    obtain ⟨hsql, henabled, hafter⟩ := hidle.replaced sql hsome
    exact ⟨⟨hsql, henabled, hb.mpr ⟨hidle.action, hidle.unbroken⟩⟩, hafter⟩

end Put

section Requests

variable {ext : RuleExternals} {cr cr' : ConfRule} {body : Option Json} {code : RestCode}

theorem postRules_unchanged_iff (h : postRules ext cr body = some (cr', .error code)) :
    Unchanged cr cr' ↔ Atomic cr (.post ext body) := by
  rw [postRules] at h
  split at h
  next hbody =>
    obtain ⟨rfl, -⟩ := Prod.mk.inj (Option.some.inj h)
    refine iff_of_true (Unchanged.refl _) fun req hreq => ?_
    rw [hbody] at hreq
    cases hreq
  next req hbody =>
    obtain ⟨⟨cr₁, rc⟩, hdone, h⟩ := Option.bind_eq_some_iff.mp h
    dsimp only at h
    split_ifs at h with hrc
    · obtain ⟨r, -, hr⟩ := Option.map_eq_some_iff.mp h
      cases (Prod.mk.inj hr).2
    · obtain ⟨rfl, -⟩ := Prod.mk.inj (Option.some.inj h)
      rw [postActions_unchanged_iff hdone hrc]
      constructor
      · intro hrefused req' hreq'
        obtain rfl := Option.some.inj (hbody.symm.trans hreq')
        exact hrefused
      · intro hatomic
        exact hatomic req hbody

theorem putRules_unchanged_iff {id : ℕ} (h : putRules ext cr id body = some (cr', .error code)) :
    Unchanged cr cr' ↔ Atomic cr (.put ext id body) := by
  rcases putRules_cases h with ⟨rfl, -, hrefused⟩ |
    ⟨req, before, rule, after, target, b, hbody, hfound, htarget, hbecomes, hrules, hoption, -⟩
  · refine iff_of_true (Unchanged.refl _) fun req before rule after hbody hfound => ?_
    rw [hrefused req hbody] at hfound
    cases hfound
  · obtain ⟨hcr, rfl, -⟩ := findRule_eq_some hfound
    have hatomic : Atomic cr (.put ext rule.ruleId body) ↔ PutIdle req rule after := by
      constructor
      · intro h
        exact h req before rule after hbody hfound
      · intro hidle req' before' rule' after' hbody' hfound'
        obtain rfl := Option.some.inj (hbody.symm.trans hbody')
        obtain ⟨-, heq⟩ := Prod.mk.inj (Option.some.inj (hfound.symm.trans hfound'))
        obtain ⟨rfl, rfl⟩ := Prod.mk.inj heq
        exact hidle
    rw [hatomic]
    rcases putTarget_cases htarget hbecomes with
      ⟨hnone, r, hr, hfinish⟩ | ⟨sql, r, hsome, hr, hfinish⟩
    · rw [hfinish] at hrules
      exact unchanged_inPlace hcr hoption hbecomes.eq_iff hnone hr hrules
    · rw [hfinish] at hrules
      exact unchanged_behindEnd hcr hoption hbecomes.eq_iff hsome hr hrules

theorem deleteRules_unchanged {id : ℕ} (h : deleteRules cr id = some (cr', .error code)) :
    Unchanged cr cr' := by
  rw [deleteRules] at h
  split at h
  · obtain ⟨rfl, -⟩ := Prod.mk.inj (Option.some.inj h)
    exact Unchanged.refl _
  · split_ifs at h
    cases (Prod.mk.inj (Option.some.inj h)).2

end Requests

/-- A request that fails leaves the rules and the flags as they are exactly if nothing was done
before it failed. -/
theorem failed_request_unchanged_iff {cr cr' : ConfRule} {req : RuleRequest} {code : RestCode}
    (h : handleRules cr req = some (cr', .error code)) : Unchanged cr cr' ↔ Atomic cr req := by
  cases req with
  | post ext body => exact postRules_unchanged_iff h
  | put ext id body => exact putRules_unchanged_iff h
  | delete id => exact iff_of_true (deleteRules_unchanged h) trivial

def otherTypeBody : Json := .record [("actions", .array [sqliteAction "c"])]

theorem putIdle_otherTypeBody (after : List StoredRule) :
    PutIdle otherTypeBody repubRule after := by
  have hsql : (otherTypeBody.getObjectItem (ascii "rawsql")).isNone = true := by decide +kernel
  have henabled : otherTypeBody.enabled = none := by decide +kernel
  have hreached : repubRule.action.forwordType.reached otherTypeBody.actions = false := by
    decide +kernel
  obtain ⟨htaken, hbreaks⟩ := ForwordType.unreached hreached
  refine ⟨?_, ?_, fun _ => ⟨?_, ?_⟩, ?_⟩
  · rw [htaken]
    exact RuleAction.idle_nil
  · rw [hbreaks]
    exact nofun
  · rw [henabled]
    rfl
  · rw [RuleAction.copied_of_unreached hreached]
    exact nofun
  · intro sql hsome
    rw [hsome] at hsql
    cases hsql

theorem failed_request_unchanged_otherType : ∃ cr',
    handleRules twoRules (.put plainExternals 1 (some otherTypeBody)) =
      some (cr', .error .reqParamError) ∧ Unchanged twoRules cr' := by
  have hrun : (handleRules twoRules (.put plainExternals 1 (some otherTypeBody))).map Prod.snd =
      some (.error .reqParamError) := by decide +kernel
  obtain ⟨⟨cr', answer⟩, hput, rfl⟩ := Option.map_eq_some_iff.mp hrun
  refine ⟨cr', hput, (failed_request_unchanged_iff hput).mpr ?_⟩
  intro req before rule after hbody hfound
  obtain ⟨⟨⟩, -⟩ := Option.filter_eq_some_iff.mp hbody
  obtain ⟨-, heq⟩ := Prod.mk.inj (Option.some.inj hfound)
  obtain ⟨rfl, rfl⟩ := Prod.mk.inj heq
  exact putIdle_otherTypeBody _

def unknownActionBody : Json :=
  .record [("rawsql", .string (ascii "SELECT * FROM t")),
    ("actions", .array [sqliteAction "c", .record [("name", .string (ascii "fdb"))]])]

def unknownParamBody : Json :=
  .record [("actions", .array [.record [("name", .string (ascii "repub")),
    ("params", .record [("topic", .string (ascii "c")), ("qos", .number 1)])]])]

/-- The first request leaves its new rule, and the second releases the data of a rule that stays in
the vector. -/
theorem failed_requests_change :
    (∃ cr', handleRules twoRules (.post plainExternals (some unknownActionBody)) =
        some (cr', .error .pluginIsClosed) ∧
      cr'.rules.map StoredRule.ruleId = [1, 2, 4] ∧ ¬Unchanged twoRules cr') ∧
    ∃ cr', handleRules twoRules (.put plainExternals 1 (some unknownParamBody)) =
        some (cr', .error .reqParamError) ∧
      cr'.rules.map (·.action.isReleased) = [true, false] ∧ ¬Unchanged twoRules cr' := by
  constructor
  · have hrun : (handleRules twoRules (.post plainExternals (some unknownActionBody))).map
        (fun done => (done.1.rules.map StoredRule.ruleId, done.2)) =
        some ([1, 2, 4], .error .pluginIsClosed) := by decide +kernel
    obtain ⟨⟨cr', answer⟩, hpost, hshown⟩ := Option.map_eq_some_iff.mp hrun
    obtain ⟨hids, rfl⟩ := Prod.mk.inj hshown
    refine ⟨cr', hpost, hids, fun hunchanged => ?_⟩
    have hlength : (cr'.rules.map StoredRule.ruleId).length = twoRules.rules.length := by
      rw [List.length_map, hunchanged.length]
    rw [hids] at hlength
    exact absurd hlength (by decide)
  · have hrun : (handleRules twoRules (.put plainExternals 1 (some unknownParamBody))).map
        (fun done => (done.1.rules.map StoredRule.shown, done.2)) =
        some ([{ repubRule.shown with action := .repub none },
          ⟨2, ascii "SELECT * FROM t", true, .sqlite (ascii "b")⟩], .error .reqParamError) := by
      decide +kernel
    obtain ⟨⟨cr', answer⟩, hput, hshown⟩ := Option.map_eq_some_iff.mp hrun
    obtain ⟨hrules, rfl⟩ := Prod.mk.inj hshown
    have hreleased : cr'.rules.map (·.action.isReleased) =
        (cr'.rules.map StoredRule.shown).map (·.action.isReleased) := by
      rw [List.map_map]
      rfl
    refine ⟨cr', hput, by rw [hreleased, hrules]; rfl, fun hunchanged => ?_⟩
    have hsame := hrules.symm.trans hunchanged.1
    exact absurd hsame (by decide)

end NanoMQ
