import NanoMQ.Acl
import NanoMQ.EarlyReturn
import NanoMQ.Work

/-!
# Handling a PUBLISH

`handlePub` is the chain of steps of `handle_pub`: decode, ask the HTTP authorization, resolve the
topic alias, ask the access control, then look up the subscribers and keep a retained message. The
steps before the access control are `resolve`. A bridge work skips the decoding, its packet was
filled when the message came in.
-/

namespace NanoMQ

open ByteBuffer EarlyReturn

section Steps

variable (nng : Nng) (conf : Conf) (env : PubEnv) (proto : ProtoVer) (isEvent : Bool)

def decodeStep : Body PubState ReasonCode := fun s =>
  if s.work.proto ≠ .mqttBridge ∨ isEvent = true then
    let d := decodePubMessage nng (s.work.msg.getD Msg.alloc) proto PubPacket.zalloc
    if d.code ≠ ReasonCode.success then (some d.code, s.setPacket d.packet)
    else (none, s.setPacket d.packet)
  else (none, s)

def typeStep : Body PubState ReasonCode := fun s =>
  if s.packet.fixedHeader.packetType ≠ PacketType.publish then (some ReasonCode.malformedPacket, s)
  else (none, s)

def topicQueueInit (topic : Option Bytes) : Option (List Bytes) :=
  match topic with
  | none => none
  | some t => if env.queueFails then none else some [cstr t]

/-- The HTTP authorization, which is skipped when there is no queue. -/
def authHttpStep : Body PubState ReasonCode := fun s =>
  if conf.authHttpEnable then
    match topicQueueInit env s.packet.topicBody with
    | none => (none, s)
    | some queue =>
        if env.authGranted then (none, s.act (.authHttp queue true))
        else (some ReasonCode.notAuthorized, s.act (.authHttp queue false))
  else (none, s)

/-- A valid alias: bound to the topic if there is one, looked up otherwise. -/
def aliasValueStep (a : UInt16) : Body PubState ReasonCode := fun s =>
  if a = 0 ∨ a > conf.maxTopicAlias then (some ReasonCode.topicAliasInvalid, s)
  else if s.packet.topicLen > 0 ∧ s.packet.topicBody.isSome then
    (none, { s.act (.insertAtpair s.work.pid a s.topic) with
      store := s.store.insertAtpair s.work.pid a s.topic })
  else
    match s.store.atpairs s.work.pid a with
    | some tp =>
        (none, s.setPacket { s.packet with topicBody := some tp, topicLen := tp.length })
    | none => (some ReasonCode.topicAliasInvalid, s)

def aliasStep : Body PubState ReasonCode := fun s =>
  if proto = ProtoVer.v5 then
    match propertyGetValue s.packet.properties topicAliasId with
    | some v => aliasValueStep conf v.asU16 s
    | none => if s.packet.topicLen = 0 then (some ReasonCode.protocolError, s) else (none, s)
  else (none, s)

def topicStep : Body PubState ReasonCode := fun s =>
  if s.packet.topicBody = none then (some ReasonCode.topicFilterInvalid, s) else (none, s)

def aclDenies (cparam : Option ConnParam) (topic : Bytes) : Bool :=
  match cparam with
  | none => false
  | some param => conf.aclEnable && !authAcl nng conf .pub param topic

def aclStep : Body PubState ReasonCode := fun s =>
  if isEvent = false ∧ aclDenies nng conf s.work.cparam s.topic = true then
    if conf.aclDenyAction = .disconnect then (some ReasonCode.normalDisconnection, s)
    else (some ReasonCode.banned, s)
  else (none, s)

/-- `foreach_client`: the pipes of a client list, without the zero entries. -/
def foreachClient (clients msgInfos : List ℕ) : List ℕ := msgInfos ++ clients.filter (· ≠ 0)

/-- The message that `handle_pub_retain` keeps, if it is not dropped, and the packet after it was
encoded. A version that is none of the three leaves the message empty. -/
def retainMsg (s : PubState) : Option Msg × PubPacket :=
  let ret := { Msg.alloc with timestamp := env.clock }
  let finish := fun m : Msg =>
    { m with pipe := s.work.pid, publishProtoVersion := s.work.protoVer }
  if s.work.protoVer = ProtoVer.v5 then
    let e := encodePubMessage nng { ret with cmdType := .publishV5 } s.packet PacketType.publish
    (some (finish e.msg), e.packet)
  else if s.work.protoVer = ProtoVer.v311 ∨ s.work.protoVer = ProtoVer.v31 then
    let e := encodePubMessage nng { ret with cmdType := .publish } s.packet PacketType.publish
    (if nng.mqttMsgDecode e.msg then some (finish e.msg) else none, e.packet)
  else (some (finish ret), s.packet)

def handlePubRetainSqlite (topic : Bytes) (s : PubState) : PubState :=
  if s.packet.fixedHeader.retain then
    if s.packet.payloadLen > 0 then
      { s.act (.setRetain topic) with
        store := s.store.setSqliteRet topic (s.work.msg.map (fun m => (m, s.work.protoVer))) }
    else { s.act (.deleteRetain topic) with store := s.store.setSqliteRet topic none }
  else s

def handlePubRetain (topic : Bytes) (s : PubState) : PubState :=
  if conf.build.sqlite && conf.sqliteEnable then handlePubRetainSqlite topic s
  else if s.packet.fixedHeader.retain then
    if s.packet.payloadLen > 0 then
      let (ret, pkt) := retainMsg nng env s
      let s := s.setPacket pkt
      match ret with
      | none => s
      | some m => { s.act (.setRetain topic) with store := s.store.setRet topic (some m) }
    else { s.act (.deleteRetain topic) with store := s.store.setRet topic none }
  else s

def routeStep : Body PubState ReasonCode := fun s =>
  let topic := s.topic
  let clients := nng.dbtreeFindClients s.store.db topic
  let shared := nng.dbtreeFindSharedClients s.store.db topic
  let s := (s.act (.findClients topic)).act (.findSharedClients topic)
  let s := { s with work :=
    { s.work with msgInfos := foreachClient shared (foreachClient clients s.work.msgInfos) } }
  (none, handlePubRetain nng conf env topic s)

def resolve : Body PubState ReasonCode :=
  andThen (decodeStep nng proto isEvent) (andThen typeStep (andThen (authHttpStep conf env)
    (andThen (aliasStep conf proto) topicStep)))

def handlePubBody : Body PubState ReasonCode :=
  andThen (resolve nng conf env proto isEvent)
    (andThen (aclStep nng conf isEvent) (routeStep nng conf env))

def pubStart (st : Store) (w : Work) : PubState := ⟨{ w with msgInfos := [] }, st, []⟩

def handlePub (st : Store) (w : Work) : ReasonCode × PubState :=
  match handlePubBody nng conf env proto isEvent (pubStart st w) with
  | (some code, s) => (code, s)
  | (none, s) => (ReasonCode.success, s)

end Steps

/-- The topic of an action by which a message reaches subscribers or the retained store. -/
def PubAction.underTopic : PubAction → Option Bytes
  | .authHttp _ _ | .insertAtpair _ _ _ => none
  | .findClients t | .findSharedClients t | .setRetain t | .deleteRetain t => some t

/-- What no step before the routing changes: the work but for its packet, the subscriptions and the
retained messages. -/
structure PubFrame (s t : PubState) : Prop where
  work : t.work = { s.work with pubPacket := t.work.pubPacket }
  db : t.store.db = s.store.db
  retained : t.store.retained = s.store.retained
  actions : ∃ acts, t.actions = s.actions ++ acts ∧ ∀ a ∈ acts, a.underTopic = none

namespace PubFrame

theorem refl (s : PubState) : PubFrame s s := ⟨rfl, rfl, rfl, [], by simp, by simp⟩

theorem trans {s t u : PubState} (h₁ : PubFrame s t) (h₂ : PubFrame t u) : PubFrame s u := by
  obtain ⟨acts₁, ha₁, hd₁⟩ := h₁.actions
  obtain ⟨acts₂, ha₂, hd₂⟩ := h₂.actions
  refine ⟨?_, h₂.db.trans h₁.db, h₂.retained.trans h₁.retained, acts₁ ++ acts₂, ?_, ?_⟩
  · rw [h₂.work, h₁.work]
  · rw [ha₂, ha₁, List.append_assoc]
  · intro a ha
    rcases List.mem_append.mp ha with h | h
    · exact hd₁ a h
    · exact hd₂ a h

theorem setPacket (s : PubState) (pkt : PubPacket) : PubFrame s (s.setPacket pkt) :=
  ⟨rfl, rfl, rfl, [], by simp [PubState.setPacket], by simp⟩

theorem act (s : PubState) {a : PubAction} (ha : a.underTopic = none) : PubFrame s (s.act a) :=
  ⟨rfl, rfl, rfl, [a], rfl, by simpa using ha⟩

theorem insertAtpair (s : PubState) (pid : ℕ) (a : UInt16) (topic : Bytes) :
    PubFrame s { s.act (.insertAtpair pid a topic) with
      store := s.store.insertAtpair pid a topic } :=
  ⟨rfl, rfl, rfl, [.insertAtpair pid a topic], rfl, by simp [PubAction.underTopic]⟩

theorem andThen {f g : Body PubState ReasonCode} (hf : ∀ s, PubFrame s (f s).2)
    (hg : ∀ s, PubFrame s (g s).2) : ∀ s, PubFrame s (andThen f g s).2 :=
  andThen_rel (R := PubFrame) trans hf hg

end PubFrame

section FrameSteps

variable (nng : Nng) (conf : Conf) (env : PubEnv) (proto : ProtoVer) (isEvent : Bool)

theorem frame_decodeStep (s : PubState) : PubFrame s (decodeStep nng proto isEvent s).2 := by
  unfold decodeStep
  dsimp only
  split_ifs
  · exact PubFrame.setPacket s _
  · exact PubFrame.setPacket s _
  · exact PubFrame.refl s

theorem frame_typeStep (s : PubState) : PubFrame s (typeStep s).2 := by
  unfold typeStep
  split_ifs <;> exact PubFrame.refl s

theorem frame_authHttpStep (s : PubState) : PubFrame s (authHttpStep conf env s).2 := by
  unfold authHttpStep
  cases topicQueueInit env s.packet.topicBody with
  | none => split_ifs <;> exact PubFrame.refl s
  | some queue =>
    split_ifs
    · exact PubFrame.act s rfl
    · exact PubFrame.act s rfl
    · exact PubFrame.refl s

theorem frame_aliasValueStep (a : UInt16) (s : PubState) :
    PubFrame s (aliasValueStep conf a s).2 := by
  unfold aliasValueStep
  split_ifs
  · exact PubFrame.refl s
  · exact PubFrame.insertAtpair s _ _ _
  · cases s.store.atpairs s.work.pid a with
    | none => exact PubFrame.refl s
    | some tp => exact PubFrame.setPacket s _

theorem frame_aliasStep (s : PubState) : PubFrame s (aliasStep conf proto s).2 := by
  unfold aliasStep
  by_cases hv : proto = ProtoVer.v5
  · rw [if_pos hv]
    cases propertyGetValue s.packet.properties topicAliasId with
    | none =>
      dsimp only
      split_ifs <;> exact PubFrame.refl s
    | some v => exact frame_aliasValueStep conf v.asU16 s
  · rw [if_neg hv]
    exact PubFrame.refl s

theorem frame_topicStep (s : PubState) : PubFrame s (topicStep s).2 := by
  unfold topicStep
  split_ifs <;> exact PubFrame.refl s

theorem frame_resolve (s : PubState) : PubFrame s (resolve nng conf env proto isEvent s).2 := by
  apply PubFrame.andThen (frame_decodeStep nng proto isEvent)
  apply PubFrame.andThen frame_typeStep
  apply PubFrame.andThen (frame_authHttpStep conf env)
  exact PubFrame.andThen (frame_aliasStep conf proto) frame_topicStep

end FrameSteps

structure RetainFrame (topic : Bytes) (s t : PubState) : Prop where
  work : t.work = { s.work with pubPacket := t.work.pubPacket }
  db : t.store.db = s.store.db
  atpairs : t.store.atpairs = s.store.atpairs
  actions : ∃ acts, t.actions = s.actions ++ acts ∧ ∀ a ∈ acts, a.underTopic = some topic

theorem RetainFrame.refl (topic : Bytes) (s : PubState) : RetainFrame topic s s :=
  ⟨rfl, rfl, rfl, [], by simp, by simp⟩

theorem frame_handlePubRetainSqlite (topic : Bytes) (s : PubState) :
    RetainFrame topic s (handlePubRetainSqlite topic s) := by
  unfold handlePubRetainSqlite
  split_ifs
  · exact ⟨rfl, rfl, rfl, [.setRetain topic], rfl, by simp [PubAction.underTopic]⟩
  · exact ⟨rfl, rfl, rfl, [.deleteRetain topic], rfl, by simp [PubAction.underTopic]⟩
  · exact RetainFrame.refl topic s

theorem frame_handlePubRetain (nng : Nng) (conf : Conf) (env : PubEnv) (topic : Bytes)
    (s : PubState) : RetainFrame topic s (handlePubRetain nng conf env topic s) := by
  unfold handlePubRetain
  rcases retainMsg nng env s with ⟨_ | m, pkt⟩
  · split_ifs
    · exact frame_handlePubRetainSqlite topic s
    · exact ⟨rfl, rfl, rfl, [], by simp [PubState.setPacket], by simp⟩
    · exact ⟨rfl, rfl, rfl, [.deleteRetain topic], rfl, by simp [PubAction.underTopic]⟩
    · exact RetainFrame.refl topic s
  · split_ifs
    · exact frame_handlePubRetainSqlite topic s
    · exact ⟨rfl, rfl, rfl, [.setRetain topic], rfl, by simp [PubAction.underTopic]⟩
    · exact ⟨rfl, rfl, rfl, [.deleteRetain topic], rfl, by simp [PubAction.underTopic]⟩
    · exact RetainFrame.refl topic s

def routed (nng : Nng) (s : PubState) : PubState :=
  let s' := (s.act (.findClients s.topic)).act (.findSharedClients s.topic)
  { s' with work :=
    { s.work with
      msgInfos := foreachClient (nng.dbtreeFindSharedClients s.store.db s.topic)
        (foreachClient (nng.dbtreeFindClients s.store.db s.topic) s.work.msgInfos) } }

theorem routeStep_eq (nng : Nng) (conf : Conf) (env : PubEnv) (s : PubState) :
    (routeStep nng conf env s).2 = handlePubRetain nng conf env s.topic (routed nng s) := rfl

theorem actions_routeStep (nng : Nng) (conf : Conf) (env : PubEnv) (s : PubState) :
    ∃ acts, (routeStep nng conf env s).2.actions = s.actions ++ acts ∧
      .findClients s.topic ∈ acts ∧ ∀ a ∈ acts, a.underTopic = some s.topic := by
  obtain ⟨acts, hacts, hunder⟩ :=
    (frame_handlePubRetain nng conf env s.topic (routed nng s)).actions
  refine ⟨[.findClients s.topic, .findSharedClients s.topic] ++ acts, ?_, ?_, ?_⟩
  · rw [routeStep_eq, hacts]
    simp [routed, PubState.act]
  · simp
  · intro a ha
    rcases List.mem_append.mp ha with h | h
    · rcases List.mem_pair.mp h with rfl | rfl <;> rfl
    · exact hunder a h

end NanoMQ
