import NanoMQ.Delivery

/-!
# Topic aliases on the way to a bridge

A topic alias means something on the connection of its publisher only. `handle_pub` puts the topic
that an alias stands for into the packet, but the properties stay as they were decoded, and
`bridge_pub_handler` copies all of them into a message for a remote broker of MQTT 5. So the alias
stays behind exactly when nothing is built at all.
-/

namespace NanoMQ

open ByteBuffer

def Arrival.CarriesAlias (nng : Nng) (x : Arrival) : Prop :=
  propertyGetValue (x.publishWork.decoding nng x.version).packet.properties topicAliasId ≠ none

def NoAliasForwarded (log : List Effect) : Prop :=
  ∀ f, .bridgeForward f ∈ log → propertyGetValue f.properties topicAliasId = none

/-- `bridge_pub_handler` builds nothing for the topic: it is one of the system, or no entry of an
enabled node takes it. -/
def NotBridged (nng : Nng) (conf : Conf) (topic : Bytes) : Prop :=
  (topic.length > 4 ∧ topic.take 4 = ascii "$SYS") ∨
    ∀ node ∈ conf.bridgeNodes, node.enable = true → ∀ t ∈ node.forwards,
      nng.topicFilter t.localTopic (some topic) = false

section Properties

variable {nng : Nng} {w : Work}

/-- Between two ends of MQTT 5 every message has the properties of the packet. -/
theorem properties_bridgeEntries (hw : w.protoVer = ProtoVer.v5) {node : BridgeNode}
    (hnode : node.protoVer = ProtoVer.v5) (i : ℕ) (props : Option PropertyList)
    (ts : List Topics) :
    ∀ f ∈ (bridgeEntries nng w i node props ts).2, f.properties = w.packet.properties := by
  induction ts generalizing props with
  | nil => simp [bridgeEntries]
  | cons t ts ih =>
    cases ht : nng.topicFilter t.localTopic w.packet.topicBody with
    | false => simpa [bridgeEntries, ht] using ih props
    | true =>
      simp only [bridgeEntries, ht, if_true, hw, hnode, and_self, List.forall_mem_cons]
      exact ⟨trivial, ih w.packet.properties⟩

theorem properties_bridgeNodes (hw : w.protoVer = ProtoVer.v5) {nodes : List BridgeNode}
    (hnodes : ∀ node ∈ nodes, node.protoVer = ProtoVer.v5) (i : ℕ) (props : Option PropertyList) :
    ∀ f ∈ bridgeNodes nng w i props nodes, f.properties = w.packet.properties := by
  induction nodes generalizing i props with
  | nil => simp [bridgeNodes]
  | cons node nodes ih =>
    obtain ⟨hnode, hrest⟩ := List.forall_mem_cons.mp hnodes
    cases hen : node.enable with
    | false => simpa [bridgeNodes, hen] using ih hrest (i + 1) props
    | true =>
      simp only [bridgeNodes, hen, if_true, List.forall_mem_append]
      exact ⟨properties_bridgeEntries hw hnode i props node.forwards, ih hrest (i + 1) _⟩

theorem properties_bridgePubHandler (hw : w.protoVer = ProtoVer.v5) {conf : Conf}
    (hnodes : ∀ node ∈ conf.bridgeNodes, node.protoVer = ProtoVer.v5) :
    ∀ f ∈ bridgePubHandler nng w conf, f.properties = w.packet.properties := by
  unfold bridgePubHandler
  split_ifs
  · simp
  · exact properties_bridgeNodes hw hnodes 0 none

end Properties

section Log

variable {nng : Nng} {conf : Conf}

theorem mem_bridgeEffects_iff (env : StepEnv) (w : Work) (f : ForwardMsg) :
    .bridgeForward f ∈ bridgeEffects nng conf env w ++ nngEffects nng conf w ↔
      conf.bridgeMode = true ∧ f ∈ bridgePubHandler nng w conf := by
  unfold bridgeEffects nngEffects
  cases conf.bridgeMode <;> cases conf.build.awsBridge <;> cases conf.nngPubEnable <;> simp

/-- What WAIT has forwarded to the bridges, if nothing was before. -/
theorem bridgeForward_mem_iff (h : SubHandlers) {env : StepEnv} {s : Sys}
    (hstate : s.work.state = .wait)
    (htype : (s.work.msg.getD Msg.alloc).getType = PacketType.publish) (hok : env.result = .ok)
    (hlog : ∀ f, .bridgeForward f ∉ s.log) (f : ForwardMsg) :
    .bridgeForward f ∈ (serverCb nng conf h env s).log ↔
      conf.bridgeMode = true ∧ f ∈ bridgePubHandler nng (encodeAndDeliver nng s).work conf := by
  have hdel : .bridgeForward f ∉ (encodeAndDeliver nng s).log := by
    unfold encodeAndDeliver
    dsimp only
    split_ifs
    · simp [deliverAll, hlog f]
    · exact hlog f
  rw [log_serverCb_wait conf h hstate htype hok, ← mem_bridgeEffects_iff env]
  exact List.mem_append.trans (or_iff_right hdel)

theorem packet_encodeAndDeliver (nng : Nng) (s : Sys) :
    SameParts s.work.packet (encodeAndDeliver nng s).work.packet := by
  have h := packet_encodePubMessage nng (s.work.msg.getD Msg.alloc) s.work.packet
  unfold encodeAndDeliver
  dsimp only
  split_ifs <;> exact h

theorem protoVer_encodeAndDeliver (nng : Nng) (s : Sys) :
    (encodeAndDeliver nng s).work.protoVer = s.work.protoVer := by
  unfold encodeAndDeliver
  dsimp only
  split_ifs <;> rfl

/-- A message that was accepted has nothing in the log yet but the tables. -/
theorem bridgeForward_not_mem_run {h : SubHandlers} {st : Store} {x : Arrival}
    (hpub : x.msg.cmdType = .publish) (f : ForwardMsg) :
    .bridgeForward f ∉ (x.run nng conf h st).log := by
  rw [Arrival.log_run_publish hpub]
  simp

theorem Arrival.protoVer_run {h : SubHandlers} {st : Store} {x : Arrival}
    (hpub : x.msg.cmdType = .publish) :
    (x.run nng conf h st).work.protoVer = x.version := by
  have hver : (x.handlePub nng conf st).2.work.protoVer = x.version := by
    rw [Arrival.handlePub, work_handlePub]
    rfl
  rw [Arrival.run_publish hpub, afterPublish, ← hver]
  dsimp only
  split_ifs <;> rfl

end Log

/-- Of a PUBLISH of MQTT 5 with a topic alias that `handle_pub` accepts, no message for a remote
broker carries the alias exactly when there is no such message. -/
theorem alias_not_forwarded_iff {nng : Nng} (hlaw : nng.LawfulStr) {conf : Conf} (h : SubHandlers)
    (events : List ClientEvent) {x : Arrival} (hpub : x.msg.cmdType = .publish)
    (hver : x.version = ProtoVer.v5) (halias : x.CarriesAlias nng)
    (hnodes : ∀ node ∈ conf.bridgeNodes, node.protoVer = ProtoVer.v5)
    (hcode : (x.handlePub nng conf (runEvents nng conf h Store.empty events)).1 =
      ReasonCode.success)
    {env : StepEnv} (hok : env.result = .ok) :
    let st := runEvents nng conf h Store.empty events
    ∃ topic, ProcessedUnder nng conf st x topic ∧
      (NoAliasForwarded (serverCb nng conf h env (x.run nng conf h st)).log ↔
        (conf.bridgeMode = true → NotBridged nng conf topic)) := by
  intro st
  obtain ⟨hstate, hmsg, hpacket, -⟩ := Arrival.run_accepted (h := h) hpub hcode
  obtain ⟨t, hres, -, hsame⟩ := Arrival.handlePub_accepted hcode
  obtain ⟨htype, hacc, -, hpkt⟩ := Arrival.resolved hlaw hres
  rw [← hpacket, hpkt] at hsame
  have hget : (x.run nng conf h st).work.msg.getD Msg.alloc = x.msg.stamp x.version := by
    rw [hmsg, Option.getD_some]
  have hprops : (acceptedPacket nng (x.msg.stamp x.version) x.version).properties =
      (x.publishWork.decoding nng x.version).packet.properties := by
    have hdec : x.publishWork.decoding nng x.version = _ := hacc.decodePubMessage_eq htype
    rw [hdec]
  have hmem : ∀ f, _ ↔ conf.bridgeMode = true ∧
      f ∈ bridgePubHandler nng (encodeAndDeliver nng (x.run nng conf h st)).work conf :=
    bridgeForward_mem_iff h hstate (hget ▸ htype) hok (bridgeForward_not_mem_run hpub)
  have hv := (protoVer_encodeAndDeliver nng (x.run nng conf h st)).trans
    ((Arrival.protoVer_run hpub).trans hver)
  have hparts := packet_encodeAndDeliver nng (x.run nng conf h st)
  refine ⟨t.topic, ⟨t, hres, rfl⟩, ?_⟩
  generalize hw : (encodeAndDeliver nng (x.run nng conf h st)).work = w at hmem hparts hv
  have hquiet : bridgePubHandler nng w conf = [] ↔ NotBridged nng conf t.topic := by
    have hbody : w.packet.topicBody = some t.topic := hparts.topicBody.trans hsame.topicBody
    have hlen : w.packet.topicLen = t.topic.length := hparts.topicLen.trans hsame.topicLen
    rw [bridgePubHandler_eq_nil_iff, NoForward, PubPacket.startsSys, hbody, hlen, NotBridged,
      decide_eq_true_eq]
  have hall : ∀ f ∈ bridgePubHandler nng w conf,
      f.properties = (x.publishWork.decoding nng x.version).packet.properties := by
    intro f hf
    rw [← hprops, ← hsame.properties, ← hparts.properties]
    exact properties_bridgePubHandler hv hnodes f hf
  rw [← hquiet]
  constructor
  · intro hno hmode
    apply List.eq_nil_iff_forall_not_mem.mpr
    intro f hf
    have hnone := hno f ((hmem f).mpr ⟨hmode, hf⟩)
    rw [hall f hf] at hnone
    exact halias hnone
  · intro hnil f hf
    obtain ⟨hmode, hf⟩ := (hmem f).mp hf
    rw [hnil hmode] at hf
    cases hf

def aliasBridgeConf (filter : Bytes) : Conf :=
  { Conf.bare with
    maxTopicAlias := 1, bridgeMode := true
    bridgeNodes := [⟨true, ProtoVer.v5, [⟨filter, none, none, none, none, none⟩], [], false⟩] }

theorem alias_not_forwarded_elsewhere :
    let conf := aliasBridgeConf (ascii "a")
    let x := Arrival.ofPublish bindAlias ⟨false, true, 0⟩ rfl
    x.CarriesAlias Nng.reference ∧
      NoAliasForwarded (serverCb Nng.reference conf SubHandlers.idle x.stepEnv
        (x.run Nng.reference conf SubHandlers.idle Store.empty)).log := by
  intro conf x
  have halias : x.CarriesAlias Nng.reference := by
    unfold Arrival.CarriesAlias
    decide
  obtain ⟨topic, ⟨t, hres, htopic⟩, hiff⟩ := @alias_not_forwarded_iff Nng.reference
    Reference.lawfulStr conf SubHandlers.idle [] x rfl rfl halias (by decide) (by decide) x.stepEnv
    rfl
  refine ⟨halias, hiff.mpr (fun _ => Or.inr ?_)⟩
  have ht : t = (resolve Nng.reference conf x.env.pub x.version false
      (pubStart Store.empty x.publishWork)).2 := (congrArg Prod.snd hres).symm
  rw [← htopic, ht]
  decide

/-- The remote broker gets the alias of the publisher with the message. -/
theorem alias_forwarded_to_bridge :
    let conf := aliasBridgeConf (ascii "#")
    let x := Arrival.ofPublish bindAlias ⟨false, true, 0⟩ rfl
    let s := x.run Nng.reference conf SubHandlers.idle Store.empty
    (x.handlePub Nng.reference conf Store.empty).1 = ReasonCode.success ∧
      x.CarriesAlias Nng.reference ∧
      ¬ NoAliasForwarded (serverCb Nng.reference conf SubHandlers.idle x.stepEnv s).log := by
  intro conf x s
  have hmem : .bridgeForward ⟨0, some (ascii "t"), none, 0, false, 0, false,
      (x.publishWork.decoding Nng.reference x.version).packet.properties⟩ ∈
        (serverCb Nng.reference conf SubHandlers.idle x.stepEnv s).log := by
    decide
  have halias : x.CarriesAlias Nng.reference := by
    unfold Arrival.CarriesAlias
    decide
  exact ⟨by decide, halias, fun hno => halias (hno _ hmem)⟩

end NanoMQ
