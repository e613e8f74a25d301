import NanoMQ.Types

/-!
# Configuration

The part of `conf` that the publish path reads, together with the options the broker is built with.
Access control is compiled in. The content of a rule names the one client field it looks at, except
for `ACL_AND` and `ACL_OR`, whose sub-rules do.
-/

namespace NanoMQ

open ByteBuffer

inductive AclField
  | username | clientid | ipaddr
  deriving DecidableEq, Repr

/-- `acl_rule_ct`: `ACL_RULE_ALL`, `ACL_RULE_SINGLE_STRING` and the types that never match. -/
inductive AclRuleCt
  | all
  | singleString (str : Bytes)
  | other
  deriving DecidableEq, Repr

structure AclSubRule where
  ruleType : AclField
  ruleCt : AclRuleCt
  deriving DecidableEq, Repr

inductive AclRuleType
  | field (ruleType : AclField) (ct : AclRuleCt)
  | and (rules : List AclSubRule)
  | or (rules : List AclSubRule)
  | none
  deriving DecidableEq, Repr

inductive AclAction
  | all | pub | sub
  deriving DecidableEq, Repr

inductive AclPermit
  | allow | deny
  deriving DecidableEq, Repr

structure AclRule where
  permit : AclPermit
  action : AclAction
  ruleType : AclRuleType
  topics : List Bytes
  deriving DecidableEq, Repr

inductive AclDenyAction
  | ignore | disconnect
  deriving DecidableEq, Repr

/-- An entry of a forward or subscription list of a bridge. `retain` and `qos` are `none` for
`NO_RETAIN` and `NO_QOS`. -/
structure Topics where
  localTopic : Bytes
  remoteTopic : Option Bytes
  pre : Option Bytes
  suffix : Option Bytes
  retain : Option Bool
  qos : Option (Fin 4)
  deriving DecidableEq, Repr

def Topics.remoteTopicLen (t : Topics) : ℕ := (t.remoteTopic.getD []).length

structure BridgeNode where
  enable : Bool
  protoVer : ProtoVer
  forwards : List Topics
  subs : List Topics
  /-- The subscriptions of the clients are made at the remote broker as well. -/
  transparent : Bool
  deriving DecidableEq, Repr

structure NngPubEntry where
  localTopic : Bytes
  remoteTopic : Bytes
  nngDelimiter : Bytes
  deriving DecidableEq, Repr

inductive WebhookEvent
  | clientConnack | clientDisconnected | messagePublish | other
  deriving DecidableEq, Repr

structure WebhookRule where
  event : WebhookEvent
  topic : Option Bytes
  deriving DecidableEq, Repr

/-- The `SUPP_*` options of the build that change the publish path. -/
structure Build where
  ruleEngine : Bool
  iceoryx : Bool
  awsBridge : Bool
  sqlite : Bool
  deriving DecidableEq, Repr

structure Conf where
  build : Build
  aclEnable : Bool
  aclRules : List AclRule
  aclNomatch : AclPermit
  aclDenyAction : AclDenyAction
  authHttpEnable : Bool
  maxTopicAlias : UInt16
  sqliteEnable : Bool
  bridgeMode : Bool
  bridgeNodes : List BridgeNode
  awsNodes : List BridgeNode
  nngPubEnable : Bool
  nngPubNodes : List (List NngPubEntry)
  webHookEnable : Bool
  webHookRules : List WebhookRule
  ruleEngOption : UInt8
  deriving DecidableEq, Repr

def ruleEngOff : UInt8 := 0

end NanoMQ
