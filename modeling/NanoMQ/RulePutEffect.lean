import Mathlib.Algebra.Group.Nat.Defs
import NanoMQ.RuleIdentity

/-!
# What a PUT request asks for

A PUT request that is answered with success should leave one rule with the id, with the `enabled`,
the SQL text and the parameters that the request gives and with the old ones where it gives none,
and should answer with what is stored. It does so except in four cases: a rule whose SQL text is
given is enabled whatever the request or the rule before it says, unless a `sqlite` action copies
the slot behind the end back; a `sqlite` rule that is not the last is copied over the last one; a
number that does not fit its field is cut; and `clean_start` is never set.
-/

namespace NanoMQ

open ByteBuffer KeyedUpdate

/-- What a request means by a parameter. `clean_start` is a Boolean or its name. -/
def RepubField.meant : RepubField → Json → Json
  | .cleanStart, .string s =>
    if strcaseEq s (ascii "true") then .bool true
    else if strcaseEq s (ascii "false") then .bool false
    else .string s
  | _, v => v

def RepubField.Holds : RepubField → Json → Prop
  | .protoVer, v => ∃ n : ℕ, n < 2 ^ 8 ∧ v = .number n
  | .keepalive, v => ∃ n : ℕ, n < 2 ^ 16 ∧ v = .number n
  | .cleanStart, v => RepubField.cleanStart.meant v = .bool false
  | _, _ => True

def PutTakesEffect (old : StoredRule) (req : Json) (cr' : ConfRule) (data : RuleData) : Prop :=
  ∃ r, cr'.rules.filter (fun r => r.ruleId = old.ruleId) = [r] ∧
    r.enabled = req.enabled.getD old.enabled ∧
    r.rawSql = (req.getStringValue (ascii "rawsql")).getD old.rawSql ∧
    old.action.Updated RepubField.meant (req.actions.flatMap Json.params) r.action ∧
    data = r.data

structure PutEffective (cr : ConfRule) (old : StoredRule) (req : Json) : Prop where
  last : req.getObjectItem (ascii "rawsql") = none → old.action.forwordType = .sqlite →
    req.actions ≠ [] → ∃ before, cr.rules = before ++ [old]
  enabled : req.getObjectItem (ascii "rawsql") ≠ none → req.enabled.getD old.enabled = true ∨
    (old.action.forwordType = .sqlite ∧ req.actions ≠ [] ∧ req.enabled ≠ none)
  params : ∀ p, old.action = .repub (some p) → ∀ f v,
    repubSchema.lastGiven f (req.actions.flatMap Json.params) = some v → f.Holds v

theorem Json.valueint_natCast {n : ℕ} (h : n < 2 ^ 31) : (Json.number (n : ℤ)).valueint = n := by
  rw [valueint]
  omega

theorem toNat_ofInt8 {n : ℕ} (h : n < 2 ^ 8) : (UInt8.ofInt n).toNat = n := by
  rw [UInt8.ofInt, UInt8.toNat_ofNat']
  omega

theorem toNat_ofInt16 {n : ℕ} (h : n < 2 ^ 16) : (UInt16.ofInt n).toNat = n := by
  rw [UInt16.ofInt, UInt16.toNat_ofNat']
  omega

theorem RepubField.stored_eq_meant_iff (f : RepubField) (v : Json) :
    f.stored v = f.meant v ↔ f.Holds v := by
  cases f with
  | protoVer =>
    constructor
    · intro h
      exact ⟨_, (UInt8.ofInt v.valueint).toNat_lt, h.symm⟩
    · rintro ⟨n, hn, rfl⟩
      show Json.number ((UInt8.ofInt (Json.number (n : ℤ)).valueint).toNat : ℤ) = .number (n : ℤ)
      rw [Json.valueint_natCast (by omega), toNat_ofInt8 hn]
  | keepalive =>
    constructor
    · intro h
      exact ⟨_, (UInt16.ofInt v.valueint).toNat_lt, h.symm⟩
    · rintro ⟨n, hn, rfl⟩
      show Json.number ((UInt16.ofInt (Json.number (n : ℤ)).valueint).toNat : ℤ) = .number (n : ℤ)
      rw [Json.valueint_natCast (by omega), toNat_ofInt16 hn]
  | cleanStart => exact eq_comm
  | _ => exact iff_of_true rfl trivial

/-- What is stored is what was meant exactly if each field of a `repub` action can hold its
value. -/
theorem RuleAction.Updated.meant_iff {a b : RuleAction} {params : List (Option Bytes × Json)}
    (h : a.Updated RepubField.stored params b) :
    a.Updated RepubField.meant params b ↔ ∀ p, a = .repub (some p) → ∀ f v,
      repubSchema.lastGiven f params = some v → f.Holds v := by
  rcases a with (_ | p) | s | ⟨kind, _ | p⟩ | _
  · exact iff_of_true h nofun
  · obtain ⟨q, rfl, hq⟩ := h
    have hreads : repubSchema.Updated RepubField.meant p params q ↔ ∀ f v,
        repubSchema.lastGiven f params = some v → f.Holds v := by
      rw [Schema.Updated.reads_iff hq]
      refine forall_congr' fun f => forall_congr' fun v => imp_congr_right fun _ => ?_
      exact RepubField.stored_eq_meant_iff f v
    constructor
    · rintro ⟨_, ⟨⟩, hmeant⟩ _ ⟨⟩
      exact hreads.mp hmeant
    · intro hholds
      exact ⟨q, rfl, hreads.mpr (hholds p rfl)⟩
  · exact iff_of_true h nofun
  · exact iff_of_true h nofun
  · exact iff_of_true h nofun
  · exact iff_of_true h nofun

section

variable {cr cr' : ConfRule} {before after : List StoredRule} {old r : StoredRule}

theorem ruleId_ne_of_distinct (hdistinct : cr.Distinct) (hcr : cr.rules = before ++ old :: after) :
    (∀ r ∈ before, r.ruleId ≠ old.ruleId) ∧ ∀ r ∈ after, r.ruleId ≠ old.ruleId := by
  rw [ConfRule.Distinct, hcr, List.map_append, List.map_cons, List.nodup_middle,
    List.nodup_cons, ← List.map_append] at hdistinct
  have hnot : ∀ r ∈ before ++ after, r.ruleId ≠ old.ruleId := by
    intro r hr hid
    apply hdistinct.1
    rw [← hid]
    exact List.mem_map_of_mem hr
  exact ⟨fun r hr => hnot r (List.mem_append_left _ hr),
    fun r hr => hnot r (List.mem_append_right _ hr)⟩

theorem filter_ruleId {rules : List StoredRule} {id : ℕ} (h : ∀ r ∈ rules, r.ruleId ≠ id) :
    rules.filter (fun r => r.ruleId = id) = [] := by
  rw [List.filter_eq_nil_iff]
  intro r hr
  simpa using h r hr

theorem last_iff (hdistinct : cr.Distinct) (hcr : cr.rules = before ++ old :: after) :
    (∃ before', cr.rules = before' ++ [old]) ↔ after = [] := by
  constructor
  · rintro ⟨before', hlast⟩
    by_contra hafter
    have hmem : old ∈ after := by
      have hget : cr.rules.getLast? = some old := by rw [hlast, List.getLast?_concat]
      rw [hcr, List.getLast?_append_of_ne_nil _ (List.cons_ne_nil _ _),
        List.getLast?_cons_of_ne_nil hafter] at hget
      exact List.mem_of_getLast? hget
    exact (ruleId_ne_of_distinct hdistinct hcr).2 old hmem rfl
  · rintro rfl
    exact ⟨before, hcr⟩

theorem putTakesEffect_iff {req : Json} {data : RuleData}
    (h : cr'.rules.filter (fun r => r.ruleId = old.ruleId) = [r])
    (haction : old.action.Updated RepubField.stored (req.actions.flatMap Json.params) r.action)
    (hsql : r.rawSql = (req.getStringValue (ascii "rawsql")).getD old.rawSql) :
    PutTakesEffect old req cr' data ↔
      (r.enabled = req.enabled.getD old.enabled ∧ data = r.data) ∧
        ∀ p, old.action = .repub (some p) → ∀ f v,
          repubSchema.lastGiven f (req.actions.flatMap Json.params) = some v → f.Holds v := by
  rw [← haction.meant_iff]
  constructor
  · rintro ⟨r', hr', henabled, -, hupdated, hdata⟩
    obtain rfl : r = r' := List.singleton_inj.mp (h.symm.trans hr')
    exact ⟨⟨henabled, hdata⟩, hupdated⟩
  · rintro ⟨⟨henabled, hdata⟩, hupdated⟩
    exact ⟨r, h, henabled, hsql, hupdated, hdata⟩

theorem not_putTakesEffect {req : Json} {data : RuleData}
    (h : cr'.rules.filter (fun r => r.ruleId = old.ruleId) = [r, r]) :
    ¬PutTakesEffect old req cr' data := by
  rintro ⟨r', hr', -⟩
  have hlen := congrArg List.length (h.symm.trans hr')
  exact absurd hlen (by simp)

section Cases

variable {ext : RuleExternals} {req : Json} {b : RuleAction} {copied : Bool}
  (hdistinct : cr.Distinct) (hcr : cr.rules = before ++ old :: after)
  (hcopied : copied = true ↔ old.action.forwordType = .sqlite ∧ req.actions ≠ [])
  (hupdated : old.action.Updated RepubField.stored (req.actions.flatMap Json.params) b)

include hdistinct hcr hcopied hupdated

/-- Without SQL text only the copy over the last rule and the values of the fields matter. -/
theorem putTakesEffect_inPlace (hnone : req.getObjectItem (ascii "rawsql") = none)
    (hr : r = { old with enabled := req.enabled.getD old.enabled, action := b })
    (hrules : cr'.rules = before ++ r ::
      (if copied && !after.isEmpty then after.dropLast ++ [r] else after)) :
    PutTakesEffect old req cr' r.data ↔ PutEffective cr old req := by
  obtain ⟨hbefore, hafter⟩ := ruleId_ne_of_distinct hdistinct hcr
  have hid : r.ruleId = old.ruleId := by rw [hr]
  have hlast : (copied && !after.isEmpty) = true ↔
      old.action.forwordType = .sqlite ∧ req.actions ≠ [] ∧ after ≠ [] := by
    rw [Bool.and_eq_true, hcopied, and_assoc]
    simp
  by_cases hover : (copied && !after.isEmpty) = true
  · have hdrop : ∀ q ∈ after.dropLast, q.ruleId ≠ old.ruleId :=
      fun q hq => hafter q (List.dropLast_subset after hq)
    rw [if_pos hover] at hrules
    refine iff_of_false (not_putTakesEffect (r := r) ?_) ?_
    · rw [hrules, List.filter_append, filter_ruleId hbefore,
        List.filter_cons_of_pos (by simpa using hid), List.filter_append, filter_ruleId hdrop]
      simp [hid]
    · intro heffective
      obtain ⟨hsqlite, hactions, hne⟩ := hlast.mp hover
      exact hne ((last_iff hdistinct hcr).mp (heffective.last hnone hsqlite hactions))
  · rw [if_neg hover] at hrules
    have hfilter : cr'.rules.filter (fun r => r.ruleId = old.ruleId) = [r] := by
      rw [hrules, List.filter_append, filter_ruleId hbefore,
        List.filter_cons_of_pos (by simpa using hid), filter_ruleId hafter, List.nil_append]
    have hsql : r.rawSql = (req.getStringValue (ascii "rawsql")).getD old.rawSql := by
      rw [hr, Json.getStringValue, hnone]
      rfl
    have hb : r.action = b := by rw [hr]
    rw [putTakesEffect_iff hfilter (hb ▸ hupdated) hsql, and_iff_right ⟨by rw [hr], rfl⟩]
    constructor
    · intro hparams
      refine ⟨fun _ hsqlite hactions => ?_, fun hsome => absurd hnone hsome, hparams⟩
      rw [last_iff hdistinct hcr]
      by_contra hne
      exact hover (hlast.mpr ⟨hsqlite, hactions, hne⟩)
    · intro heffective
      exact heffective.params

/-- With SQL text it matters which of the two copies of the rule has the `enabled` of the
request. -/
theorem putTakesEffect_behindEnd {sql : Bytes}
    (hsome : req.getObjectItem (ascii "rawsql") = some (.string sql))
    (hr : r = ⟨old.ruleId, sql, true, b, ext.ruleSqlParse sql⟩)
    (hrules : cr'.rules = (before ++ after) ++
      [if copied then { r with enabled := req.enabled.getD true } else r]) :
    PutTakesEffect old req cr' { r with enabled := req.enabled.getD true }.data ↔
      PutEffective cr old req := by
  obtain ⟨hbefore, hafter⟩ := ruleId_ne_of_distinct hdistinct hcr
  have hothers : ∀ q ∈ before ++ after, q.ruleId ≠ old.ruleId := fun q hq =>
    (List.mem_append.mp hq).elim (hbefore q) (hafter q)
  have hfilter : ∀ q : StoredRule, q.ruleId = old.ruleId →
      ((before ++ after) ++ [q]).filter (fun r => r.ruleId = old.ruleId) = [q] := by
    intro q hq
    rw [List.filter_append, filter_ruleId hothers, List.nil_append]
    simp [hq]
  have hsql : sql = (req.getStringValue (ascii "rawsql")).getD old.rawSql := by
    rw [Json.getStringValue, hsome]
    rfl
  have hnone : req.getObjectItem (ascii "rawsql") ≠ none := by
    rw [hsome]
    exact Option.some_ne_none _
  have heffective : PutEffective cr old req ↔
      (req.enabled.getD old.enabled = true ∨ (copied = true ∧ req.enabled ≠ none)) ∧
        ∀ p, old.action = .repub (some p) → ∀ f v,
          repubSchema.lastGiven f (req.actions.flatMap Json.params) = some v → f.Holds v := by
    rw [hcopied, and_assoc]
    constructor
    · intro h
      exact ⟨h.enabled hnone, h.params⟩
    · rintro ⟨henabled, hparams⟩
      exact ⟨fun h => absurd h hnone, fun _ => henabled, hparams⟩
  have hid : r.ruleId = old.ruleId := by rw [hr]
  have hb : r.action = b := by rw [hr]
  have hr_sql : r.rawSql = sql := by rw [hr]
  cases copied with
  | true =>
    rw [if_pos rfl] at hrules
    have hone := hfilter { r with enabled := req.enabled.getD true } hid
    rw [← hrules] at hone
    rw [putTakesEffect_iff hone (hb ▸ hupdated) (hr_sql.trans hsql), heffective]
    refine and_congr_left fun _ => ?_
    cases req.enabled with
    | none => cases old.enabled <;> simp
    | some e => simp
  | false =>
    rw [if_neg Bool.false_ne_true] at hrules
    have hone := hfilter r hid
    rw [← hrules] at hone
    rw [putTakesEffect_iff hone (hb ▸ hupdated) (hr_sql.trans hsql), heffective]
    refine and_congr_left fun _ => ?_
    have htrue : r.enabled = true := by rw [hr]
    cases req.enabled with
    | none => cases old.enabled <;> simp [StoredRule.data, htrue]
    | some e => cases e <;> simp [StoredRule.data, htrue]

end Cases

end

/-- A successful PUT request takes effect exactly if it is none of the exceptions. -/
theorem putRules_takes_effect_iff {ext : RuleExternals} {cr cr' : ConfRule} {old : StoredRule}
    {req : Json} {data : RuleData} (hdistinct : cr.Distinct) (hold : old ∈ cr.rules)
    (h : putRules ext cr old.ruleId (some req) = some (cr', .data data)) :
    PutTakesEffect old req cr' data ↔ PutEffective cr old req := by
  rcases putRules_cases h with ⟨-, ⟨_, ⟨⟩⟩, -⟩ |
    ⟨req', before, rule, after, target, b, hbody, hfound, htarget, hbecomes, hrules, -, hanswer⟩
  obtain ⟨hcr, hrule, -⟩ := findRule_eq_some hfound
  obtain rfl : rule = old := List.inj_on_of_nodup_map hdistinct (by simp [hcr]) hold hrule
  obtain ⟨⟨⟩, -⟩ := Option.filter_eq_some_iff.mp hbody
  obtain ⟨hfits, hdata⟩ | ⟨-, _, ⟨⟩⟩ := hanswer
  have hcases := putTarget_cases htarget hbecomes
  obtain ⟨htaken, hbreaks⟩ := ForwordType.taken_of_fits hfits
  rw [htaken, hbreaks] at hbecomes
  have hupdated : rule.action.Updated RepubField.stored (req.actions.flatMap Json.params) b := by
    simpa [RuleAction.Becomes] using hbecomes
  have hcopied : rule.action.copied req.actions = true ↔
      rule.action.forwordType = .sqlite ∧ req.actions ≠ [] := by
    rw [RuleAction.copied, Bool.and_eq_true, decide_eq_true_iff]
    refine and_congr_right fun hsqlite => ?_
    rw [← hsqlite, ForwordType.reached_of_fits hfits]
    simp
  rcases hcases with ⟨hnone, r, hr, hfinish⟩ | ⟨sql, r, hsome, hr, hfinish⟩
  · rw [hfinish] at hrules hdata
    obtain rfl := RuleAnswer.data.inj hdata
    exact putTakesEffect_inPlace hdistinct hcr hcopied hupdated hnone hr hrules
  · rw [hfinish] at hrules hdata
    obtain rfl := RuleAnswer.data.inj hdata
    exact putTakesEffect_behindEnd hdistinct hcr hcopied hupdated hsome hr hrules

def repubRule : StoredRule :=
  ⟨1, ascii "SELECT * FROM t", true,
    .repub (some ⟨some (ascii "a"), some (ascii "mqtt-tcp://h"), 4, 60, none, none, none, true⟩),
    plainExternals.ruleSqlParse []⟩

def twoRules : ConfRule :=
  ⟨[repubRule, ⟨2, ascii "SELECT * FROM t", true, .sqlite (ascii "b"),
    plainExternals.ruleSqlParse []⟩], {.rpb, .sdb}, true⟩

theorem distinct_twoRules : twoRules.Distinct := by
  unfold ConfRule.Distinct
  decide

def topicBody : Json :=
  .record [("rawsql", .string (ascii "SELECT * FROM u")),
    ("actions", .array [.record [("name", .string (ascii "repub")),
      ("params", .record [("topic", .string (ascii "c"))])]])]

theorem putEffective_topicBody : PutEffective twoRules repubRule topicBody := by
  have hsql : (topicBody.getObjectItem (ascii "rawsql")).isSome = true := by decide +kernel
  have henabled : topicBody.enabled.getD repubRule.enabled = true := by decide +kernel
  have hgiven : ∀ f ∈ [RepubField.protoVer, .keepalive, .cleanStart],
      repubSchema.lastGiven f (topicBody.actions.flatMap Json.params) |>.isNone := by
    decide +kernel
  refine ⟨fun h => ?_, fun _ => Or.inl henabled, fun p _ f v hv => ?_⟩
  · rw [h] at hsql
    cases hsql
  · have hother : f ∉ [RepubField.protoVer, .keepalive, .cleanStart] := by
      intro hf
      have hnone := hgiven f hf
      rw [hv] at hnone
      cases hnone
    cases f with
    | protoVer => exact absurd (by decide) hother
    | keepalive => exact absurd (by decide) hother
    | cleanStart => exact absurd (by decide) hother
    | _ => trivial

theorem putRules_takes_effect_topic : ∃ cr' data,
    putRules plainExternals twoRules 1 (some topicBody) = some (cr', .data data) ∧
      PutTakesEffect repubRule topicBody cr' data := by
  have hrun : ((putRules plainExternals twoRules 1 (some topicBody)).map Prod.snd) =
      some (.data ⟨ascii "SELECT * FROM u", 1, true⟩) := by decide +kernel
  obtain ⟨⟨cr', answer⟩, hput, rfl⟩ := Option.map_eq_some_iff.mp hrun
  have heffect := putRules_takes_effect_iff distinct_twoRules List.mem_cons_self hput
  exact ⟨cr', _, hput, heffect.mpr putEffective_topicBody⟩

def disableBody : Json :=
  .record [("rawsql", .string (ascii "SELECT * FROM u")), ("enabled", .bool false)]

/-- The answer says that the rule is disabled, and it is not. -/
theorem put_keeps_enabled : ∃ cr',
    putRules plainExternals twoRules 1 (some disableBody) =
      some (cr', .data ⟨ascii "SELECT * FROM u", 1, false⟩) ∧
    cr'.rules.map StoredRule.enabled = [true, true] ∧
    ¬PutTakesEffect repubRule disableBody cr' ⟨ascii "SELECT * FROM u", 1, false⟩ := by
  have hrun : ((putRules plainExternals twoRules 1 (some disableBody)).map fun done =>
      (done.1.rules.map StoredRule.enabled, done.2)) =
      some ([true, true], .data ⟨ascii "SELECT * FROM u", 1, false⟩) := by decide +kernel
  obtain ⟨⟨cr', answer⟩, hput, hshown⟩ := Option.map_eq_some_iff.mp hrun
  obtain ⟨henabled, rfl⟩ := Prod.mk.inj hshown
  refine ⟨cr', hput, henabled, ?_⟩
  rintro ⟨r, hr, hrequested, -⟩
  have hmem : r ∈ cr'.rules := List.mem_of_mem_filter (hr ▸ List.mem_singleton_self r)
  have htrue : r.enabled ∈ [true, true] := henabled ▸ List.mem_map_of_mem hmem
  have hfalse : disableBody.enabled.getD repubRule.enabled = false := by decide +kernel
  rw [hrequested, hfalse] at htrue
  exact absurd htrue (by decide)

end NanoMQ
