import NanoMQ.Acl
import NanoMQ.Reference
import NanoMQ.RuleScan

/-!
# First-match access control

The documented reading of the rule list: the first rule that applies to the request, whose
principal condition holds and whose topics cover the topic decides, and `acl_nomatch` decides when
there is none. `authAclLoop_eq` puts the loop of `auth_acl` next to it. The loop is a first-match
scan in which the `ACL_AND` rules are latched, because `sub_match` is never set again.
-/

namespace NanoMQ

open ByteBuffer

def SingleHolds (ct : AclRuleCt) (field : Option Bytes) : Prop :=
  ct = .all ∨ ∃ s, ct = .singleString s ∧ field = some s

def AclSubRule.Holds (param : ConnParam) (r : AclSubRule) : Prop :=
  SingleHolds r.ruleCt (r.ruleType.get param)

def PrincipalHolds (param : ConnParam) : AclRuleType → Prop
  | .field f ct => SingleHolds ct (f.get param)
  | .and rules => ∀ r ∈ rules, r.Holds param
  | .or rules => ∃ r ∈ rules, r.Holds param
  | .none => True

def RuleTopicCovers (nng : Nng) (topic ruleTopic : Bytes) : Prop :=
  if ruleTopic.head? = some 0x40 ∧ ruleTopic.length > 1 then ruleTopic.drop 1 = topic
  else nng.topicFilter ruleTopic (some topic) = true

def TopicListed (nng : Nng) (param : ConnParam) (topic : Bytes) (topics : List Bytes) : Prop :=
  topics = [] ∨
    ∃ t ∈ topics, ∃ q, replaceTopic (some t) param = some q ∧ RuleTopicCovers nng topic q

def AclRule.Applies (act : AclAction) (r : AclRule) : Prop := r.action = .all ∨ r.action = act

def AclRule.isAnd (r : AclRule) : Bool :=
  match r.ruleType with
  | .and _ => true
  | _ => false

structure AclRule.Qualifies (nng : Nng) (act : AclAction) (param : ConnParam) (topic : Bytes)
    (r : AclRule) : Prop where
  applies : r.Applies act
  principal : PrincipalHolds param r.ruleType
  listed : TopicListed nng param topic r.topics

theorem matchRuleContentStr_iff (ct : AclRuleCt) (cmpStr : Option Bytes) :
    matchRuleContentStr ct cmpStr = true ↔ SingleHolds ct cmpStr := by
  cases ct <;> cases cmpStr <;> simp [matchRuleContentStr, SingleHolds, eq_comm]

theorem ruleTopicMatches_iff (nng : Nng) (ruleTopic topic : Bytes) :
    ruleTopicMatches nng ruleTopic topic = true ↔ RuleTopicCovers nng topic ruleTopic := by
  unfold ruleTopicMatches RuleTopicCovers
  split_ifs <;> simp

theorem findTopic_iff (nng : Nng) (param : ConnParam) (topic : Bytes) (topics : List Bytes) :
    findTopic nng param topic topics = true ↔
      ∃ t ∈ topics, ∃ q, replaceTopic (some t) param = some q ∧ RuleTopicCovers nng topic q := by
  induction topics with
  | nil => simp [findTopic]
  | cons t ts ih =>
    obtain ⟨q, hq⟩ := replaceTopic_isSome t param
    simp [findTopic, hq, ih, ruleTopicMatches_iff]

instance (ct : AclRuleCt) (field : Option Bytes) : Decidable (SingleHolds ct field) :=
  decidable_of_iff _ (matchRuleContentStr_iff ct field)

instance (param : ConnParam) (r : AclSubRule) : Decidable (r.Holds param) :=
  inferInstanceAs (Decidable (SingleHolds _ _))

instance (param : ConnParam) : (rt : AclRuleType) → Decidable (PrincipalHolds param rt)
  | .field f ct => inferInstanceAs (Decidable (SingleHolds ct (f.get param)))
  | .and rules => inferInstanceAs (Decidable (∀ r ∈ rules, r.Holds param))
  | .or rules => inferInstanceAs (Decidable (∃ r ∈ rules, r.Holds param))
  | .none => inferInstanceAs (Decidable True)

instance (nng : Nng) (param : ConnParam) (topic : Bytes) (topics : List Bytes) :
    Decidable (TopicListed nng param topic topics) :=
  decidable_of_iff (topics = [] ∨ findTopic nng param topic topics = true)
    (or_congr Iff.rfl (findTopic_iff nng param topic topics))

instance (act : AclAction) (r : AclRule) : Decidable (r.Applies act) :=
  inferInstanceAs (Decidable (_ ∨ _))

instance (nng : Nng) (act : AclAction) (param : ConnParam) (topic : Bytes) (r : AclRule) :
    Decidable (r.Qualifies nng act param topic) :=
  decidable_of_iff (r.Applies act ∧ PrincipalHolds param r.ruleType ∧
      TopicListed nng param topic r.topics)
    ⟨fun h => ⟨h.1, h.2.1, h.2.2⟩, fun h => ⟨h.applies, h.principal, h.listed⟩⟩

def verdict (config : Conf) : Option AclRule → Bool
  | some r => r.permit = .allow
  | none => config.aclNomatch = .allow

def firstVerdict (nng : Nng) (config : Conf) (act : AclAction) (param : ConnParam)
    (topic : Bytes) : Bool :=
  verdict config (config.aclRules.find? (fun r => r.Qualifies nng act param topic))

/-- An `ACL_AND` rule for this action with a sub-rule that does not hold: it clears `sub_match`. -/
def AclRule.FailedAnd (act : AclAction) (param : ConnParam) (r : AclRule) : Prop :=
  r.isAnd = true ∧ r.Applies act ∧ ¬ PrincipalHolds param r.ruleType

instance (act : AclAction) (param : ConnParam) (r : AclRule) : Decidable (r.FailedAnd act param) :=
  inferInstanceAs (Decidable (_ ∧ _))

section Loop

variable (param : ConnParam)

theorem AclSubRule.holds_iff (r : AclSubRule) : r.holds param = true ↔ r.Holds param :=
  matchRuleContentStr_iff r.ruleCt (r.ruleType.get param)

theorem andLoop_iff (subMatch : Bool) (rules : List AclSubRule) :
    andLoop param subMatch rules = true ↔ subMatch = true ∧ ∀ r ∈ rules, r.Holds param := by
  induction rules generalizing subMatch with
  | nil => simp [andLoop]
  | cons r rs ih =>
    by_cases hr : r.Holds param
    · cases subMatch <;> simp [andLoop, AclSubRule.holds_iff, hr, ih]
    · simp [andLoop, AclSubRule.holds_iff, hr]

theorem orLoop_iff (rules : List AclSubRule) :
    orLoop param false rules = true ↔ ∃ r ∈ rules, r.Holds param := by
  induction rules with
  | nil => simp [orLoop]
  | cons r rs ih =>
    have hiff := AclSubRule.holds_iff param r
    cases hr : r.holds param <;> simp_all [orLoop]

/-- A turn that begins with `match` false: an `ACL_AND` rule also needs `sub_match`. -/
theorem matchRule_fst_iff (subMatch : Bool) (r : AclRule) :
    (matchRule param false subMatch r.ruleType).1 = true ↔
      PrincipalHolds param r.ruleType ∧ ¬ (r.isAnd = true ∧ subMatch = false) := by
  cases hrt : r.ruleType with
  | field f ct => simp [matchRule, AclRule.isAnd, hrt, matchRuleContentStr_iff, PrincipalHolds]
  | and rules => simp [matchRule, AclRule.isAnd, hrt, andLoop_iff, PrincipalHolds, and_comm]
  | or rules => simp [matchRule, AclRule.isAnd, hrt, orLoop_iff, PrincipalHolds]
  | none => simp [matchRule, AclRule.isAnd, hrt, PrincipalHolds]

/-- An `ACL_AND` rule clears `sub_match` when it fails; no rule sets it. -/
theorem matchRule_snd_iff (matched subMatch : Bool) (r : AclRule) :
    (matchRule param matched subMatch r.ruleType).2 = true ↔
      subMatch = true ∧ ¬ (r.isAnd = true ∧ ¬ PrincipalHolds param r.ruleType) := by
  cases hrt : r.ruleType with
  | field f ct => simp [matchRule, AclRule.isAnd, hrt]
  | and rules => simp [matchRule, AclRule.isAnd, hrt, andLoop_iff, PrincipalHolds]
  | or rules => simp [matchRule, AclRule.isAnd, hrt]
  | none => simp [matchRule, AclRule.isAnd, hrt]

end Loop

section Verdict

variable (nng : Nng) (act : AclAction) (param : ConnParam) (topic : Bytes)

theorem not_listed_iff (r : AclRule) :
    (r.topics.length > 0 ∧ findTopic nng param topic r.topics = false) ↔
      ¬ TopicListed nng param topic r.topics := by
  rw [TopicListed, ← findTopic_iff, not_or, Bool.not_eq_true, gt_iff_lt, List.length_pos_iff]

theorem authAclLoop_cons_of_applies (subMatch : Bool) {r : AclRule} (rs : List AclRule)
    (happ : r.Applies act) :
    authAclLoop nng act param topic false subMatch (r :: rs) =
      if r.Qualifies nng act param topic ∧ ¬ (r.isAnd = true ∧ subMatch = false) then
        (true, decide (r.permit = .allow))
      else authAclLoop nng act param topic false
        (matchRule param false subMatch r.ruleType).2 rs := by
  have hgo : ¬ (r.action ≠ .all ∧ r.action ≠ act) := fun h => happ.elim h.1 h.2
  have hfst := matchRule_fst_iff param subMatch r
  rw [authAclLoop, if_neg hgo]
  cases hm : matchRule param false subMatch r.ruleType with
  | mk matched sub =>
    rw [hm] at hfst
    cases matched with
    | false =>
      have hno : ¬ (r.Qualifies nng act param topic ∧ ¬ (r.isAnd = true ∧ subMatch = false)) :=
        fun h => Bool.false_ne_true (hfst.mpr ⟨h.1.principal, h.2⟩)
      simp only [if_neg hno, Bool.false_eq_true, if_false]
    | true =>
      obtain ⟨hp, hl⟩ := hfst.mp rfl
      by_cases ht : TopicListed nng param topic r.topics
      · have hyes : r.Qualifies nng act param topic ∧ ¬ (r.isAnd = true ∧ subMatch = false) :=
          ⟨⟨happ, hp, ht⟩, hl⟩
        have hfound := mt (not_listed_iff nng param topic r).mp (not_not.mpr ht)
        rw [if_pos hyes]
        cases r.permit <;> simp [if_neg hfound]
      · have hno : ¬ (r.Qualifies nng act param topic ∧ ¬ (r.isAnd = true ∧ subMatch = false)) :=
          fun h => ht h.1.listed
        have hmiss := (not_listed_iff nng param topic r).mpr ht
        simp only [if_neg hno, if_true, if_pos hmiss]

/-- The loop of `auth_acl` is the latched scan of the rules. -/
theorem authAclLoop_eq (subMatch : Bool) (rules : List AclRule) :
    authAclLoop nng act param topic false subMatch rules =
      match RuleScan.scan AclRule.isAnd (fun r => r.FailedAnd act param)
          (fun r => r.Qualifies nng act param topic) subMatch rules with
      | some r => (true, decide (r.permit = .allow))
      | none => (false, false) := by
  induction rules generalizing subMatch with
  | nil => rfl
  | cons r rs ih =>
    by_cases happ : r.Applies act
    · have hsnd : (matchRule param false subMatch r.ruleType).2 =
          (subMatch && !decide (r.FailedAnd act param)) := by
        rw [Bool.eq_iff_iff, matchRule_snd_iff]
        cases hand : r.isAnd <;> simp [AclRule.FailedAnd, happ, hand]
      rw [authAclLoop_cons_of_applies nng act param topic subMatch rs happ, hsnd, ih]
      by_cases hl : r.isAnd = true ∧ subMatch = false
      · simp [RuleScan.scan, hl]
      · have hl' : (r.isAnd && !subMatch) = false := by simpa using hl
        by_cases hq : r.Qualifies nng act param topic <;> simp [RuleScan.scan, hl', hl, hq]
    · have hskip : r.action ≠ .all ∧ r.action ≠ act := not_or.mp happ
      have hq : ¬ r.Qualifies nng act param topic := fun h => happ h.applies
      have hf : ¬ r.FailedAnd act param := fun h => happ h.2.1
      rw [authAclLoop, if_pos hskip, ih]
      simp [RuleScan.scan, hq, hf]

theorem authAcl_eq_verdict (config : Conf) :
    authAcl nng config act param topic =
      verdict config (RuleScan.scan AclRule.isAnd (fun r => r.FailedAnd act param)
        (fun r => r.Qualifies nng act param topic) true config.aclRules) := by
  rw [authAcl, authAclLoop_eq]
  cases RuleScan.scan AclRule.isAnd (fun r => r.FailedAnd act param)
      (fun r => r.Qualifies nng act param topic) true config.aclRules with
  | none => simp [verdict]
  | some r => simp [verdict]

/-- `auth_acl` gives the first-match answer exactly when passing over does not show: wherever the
deciding rule is an `ACL_AND` rule and an earlier `ACL_AND` rule for the same action failed, the
rules behind it, without their `ACL_AND` rules, must give that rule's answer too. -/
theorem authAcl_eq_firstVerdict_iff (config : Conf) :
    authAcl nng config act param topic = firstVerdict nng config act param topic ↔
      ∀ pre r post, config.aclRules = pre ++ r :: post →
        (∀ q ∈ pre, ¬ q.Qualifies nng act param topic) → r.Qualifies nng act param topic →
        r.isAnd = true → (∃ q ∈ pre, q.FailedAnd act param) →
        verdict config ((post.filter (fun q => !q.isAnd)).find?
          (fun q => q.Qualifies nng act param topic)) = decide (r.permit = .allow) := by
  rw [authAcl_eq_verdict, firstVerdict]
  have h := RuleScan.scan_verdict_iff AclRule.isAnd (fun r => r.FailedAnd act param)
    (fun r => r.Qualifies nng act param topic) (verdict config) config.aclRules
  simp only [decide_eq_true_eq, decide_eq_false_iff_not] at h
  exact h

/-- Two `ACL_AND` rules, the first for another client: client `c` meets the second, which allows,
but the loop passes it over and refuses. -/
theorem authAcl_passes_over_and_rule :
    let rules : List AclRule :=
      [⟨.allow, .all, .and [⟨.clientid, .singleString (ascii "x")⟩], []⟩,
        ⟨.allow, .all, .and [⟨.clientid, .singleString (ascii "c")⟩], []⟩]
    let config : Conf := { Conf.bare with aclRules := rules, aclNomatch := .deny }
    let param : ConnParam := { ConnParam.bare with clientid := some (ascii "c") }
    firstVerdict Nng.reference config .pub param (ascii "t") = true ∧
      authAcl Nng.reference config .pub param (ascii "t") = false := by
  decide

end Verdict

end NanoMQ
