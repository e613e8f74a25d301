import NanoMQ.HandlePub

/-!
# Forwarding and hooks

What happens to a publication besides its delivery: the messages that `bridge_pub_handler`,
`aws_bridge_forward` and `nng_pub_handler` build from the packet of a work, and the events that
`hook_entry` reports. Each is a function of the configuration and the work, and each has a lemma
that says when it does nothing.
-/

namespace NanoMQ

open ByteBuffer

structure ForwardMsg where
  node : ℕ
  topic : Option Bytes
  payloadData : Option Bytes
  payloadLen : ℕ
  dup : Bool
  qos : Fin 4
  retain : Bool
  properties : Option PropertyList
  deriving DecidableEq, Repr

def PubPacket.startsSys (pkt : PubPacket) : Bool :=
  match pkt.topicBody with
  | none => false
  | some t => t.take 4 = ascii "$SYS"

section Bridge

variable (nng : Nng) (w : Work)

/-- The topic of a forward entry: remapped, then with prefix and suffix. -/
def forwardTopic (t : Topics) : Option Bytes :=
  let topic :=
    if t.remoteTopicLen ≠ 0 then nng.generateRepubTopic t w.packet.topicBody false
    else w.packet.topicBody
  topic.map (fun b => t.pre.getD [] ++ b ++ t.suffix.getD [])

/-- The entries of one node. The property list of the loop is only ever replaced, so an entry of a
later node can carry the one of an earlier node. -/
def bridgeEntries (i : ℕ) (node : BridgeNode) :
    Option PropertyList → List Topics → Option PropertyList × List ForwardMsg
  | props, [] => (props, [])
  | props, t :: ts =>
      if nng.topicFilter t.localTopic w.packet.topicBody then
        let props :=
          if w.protoVer = ProtoVer.v5 ∧ node.protoVer = ProtoVer.v5 then w.packet.properties
          else props
        let (rest, msgs) := bridgeEntries i node props ts
        (rest, ⟨i, forwardTopic nng w t, w.packet.payloadData, w.packet.payloadLen,
          w.packet.fixedHeader.dup, t.qos.getD w.packet.fixedHeader.qos,
          t.retain.getD w.packet.fixedHeader.retain, props⟩ :: msgs)
      else bridgeEntries i node props ts

def bridgeNodes : ℕ → Option PropertyList → List BridgeNode → List ForwardMsg
  | _, _, [] => []
  | i, props, node :: nodes =>
      if node.enable then
        let (rest, msgs) := bridgeEntries nng w i node props node.forwards
        msgs ++ bridgeNodes (i + 1) rest nodes
      else bridgeNodes (i + 1) props nodes

def bridgePubHandler (conf : Conf) : List ForwardMsg :=
  if w.packet.topicLen > 4 ∧ w.packet.startsSys = true then []
  else bridgeNodes nng w 0 none conf.bridgeNodes

/-- The entries of one AWS node, left when `MQTT_ProcessLoop` fails behind a publication. -/
def awsEntries (loopOk : ℕ → Topics → Bool) (i : ℕ) : List Topics → List ForwardMsg
  | [] => []
  | t :: ts =>
      if nng.topicFilter t.localTopic w.packet.topicBody then
        let topic := if t.remoteTopicLen = 0 then w.packet.topicBody else t.remoteTopic
        ⟨i, topic, w.packet.payloadData, w.packet.payloadLen, w.packet.fixedHeader.dup,
          w.packet.fixedHeader.qos, w.packet.fixedHeader.retain, none⟩ ::
          if loopOk i t then awsEntries loopOk i ts else []
      else awsEntries loopOk i ts

def awsNodes (loopOk : ℕ → Topics → Bool) : ℕ → List BridgeNode → List ForwardMsg
  | _, [] => []
  | i, node :: nodes =>
      (if node.enable then awsEntries nng w loopOk i node.forwards else []) ++
        awsNodes loopOk (i + 1) nodes

def awsBridgeForward (loopOk : ℕ → Topics → Bool) (conf : Conf) : List ForwardMsg :=
  awsNodes nng w loopOk 0 conf.awsNodes

/-- The body of the NNG message for an entry; a work of the proxy passes its own message on. -/
def nngPubMsg (e : NngPubEntry) : Bytes :=
  if w.proto = .nngBridge then (w.nmsg.getD Msg.alloc).body
  else
    (if e.remoteTopic.length > 0 then e.remoteTopic else w.packet.topicBody.getD []) ++
      (if e.nngDelimiter.length > 0 then e.nngDelimiter else ascii "/") ++
      (w.packet.payloadData.getD []).take w.packet.payloadLen

def nngPubHandler (conf : Conf) : List Bytes :=
  if w.packet.topicLen ≥ 4 ∧ w.packet.startsSys = true then []
  else
    conf.nngPubNodes.flatMap (fun node =>
      (node.filter (fun e => nng.topicFilter e.localTopic w.packet.topicBody)).map (nngPubMsg w))

end Bridge

section Quiet

variable {nng : Nng} {w : Work}

theorem bridgeEntries_eq_nil_iff (i : ℕ) (node : BridgeNode) (props : Option PropertyList)
    (ts : List Topics) :
    (bridgeEntries nng w i node props ts).2 = [] ↔
      ∀ t ∈ ts, nng.topicFilter t.localTopic w.packet.topicBody = false := by
  induction ts generalizing props with
  | nil => simp [bridgeEntries]
  | cons t ts ih =>
    cases ht : nng.topicFilter t.localTopic w.packet.topicBody <;> simp [bridgeEntries, ht, ih]

theorem bridgeNodes_eq_nil_iff (i : ℕ) (props : Option PropertyList) (nodes : List BridgeNode) :
    bridgeNodes nng w i props nodes = [] ↔
      ∀ node ∈ nodes, node.enable = true → ∀ t ∈ node.forwards,
        nng.topicFilter t.localTopic w.packet.topicBody = false := by
  induction nodes generalizing i props with
  | nil => simp [bridgeNodes]
  | cons node nodes ih =>
    cases hen : node.enable <;> simp [bridgeNodes, hen, ih, bridgeEntries_eq_nil_iff]

theorem awsEntries_eq_nil_iff (loopOk : ℕ → Topics → Bool) (i : ℕ) (ts : List Topics) :
    awsEntries nng w loopOk i ts = [] ↔
      ∀ t ∈ ts, nng.topicFilter t.localTopic w.packet.topicBody = false := by
  induction ts with
  | nil => simp [awsEntries]
  | cons t ts ih =>
    cases ht : nng.topicFilter t.localTopic w.packet.topicBody <;> simp [awsEntries, ht, ih]

theorem awsNodes_eq_nil_iff (loopOk : ℕ → Topics → Bool) (i : ℕ) (nodes : List BridgeNode) :
    awsNodes nng w loopOk i nodes = [] ↔
      ∀ node ∈ nodes, node.enable = true → ∀ t ∈ node.forwards,
        nng.topicFilter t.localTopic w.packet.topicBody = false := by
  induction nodes generalizing i with
  | nil => simp [awsNodes]
  | cons node nodes ih =>
    cases hen : node.enable <;> simp [awsNodes, hen, ih, awsEntries_eq_nil_iff]

end Quiet

def eventFilter (conf : Conf) (event : WebhookEvent) : Bool :=
  conf.webHookRules.any (fun r => r.event = event)

/-- `event_filter_with_topic`: a rule without a topic stands for every topic. -/
def eventFilterWithTopic (nng : Nng) (conf : Conf) (event : WebhookEvent) (topic : Option Bytes) :
    Bool :=
  conf.webHookRules.any (fun r => r.event = event &&
    match r.topic with
    | none => true
    | some f => nng.topicFilter f topic)

def hookEvent (nng : Nng) (conf : Conf) (w : Work) : Option WebhookEvent :=
  if conf.webHookEnable then
    match w.flag with
    | .connack => if eventFilter conf .clientConnack then some .clientConnack else none
    | .publish =>
        if eventFilterWithTopic nng conf .messagePublish w.packet.topicBody then
          some .messagePublish else none
    | .disconnectEv =>
        if eventFilter conf .clientDisconnected then some .clientDisconnected else none
    | _ => none
  else none

/-- The flag after `hook_entry`: cleared, but only with the hook enabled. -/
def hookFlag (conf : Conf) (flag : CmdType) : CmdType :=
  if conf.webHookEnable then .none else flag

end NanoMQ
