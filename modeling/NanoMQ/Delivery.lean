import NanoMQ.AclEnforcement
import NanoMQ.Reencode

/-!
# Delivery

A PUBLISH of a client that `handle_pub` accepts waits with the list of its receivers. WAIT encodes
it once and sends it to each of them in turn: the subscribers of the topic first, then the shared
ones. What they get decodes to the message of the publisher under the topic it was processed under.
A message that was denied with the action `disconnect` has the code of an accepted one, but there
is nobody on its list.
-/

namespace NanoMQ

open ByteBuffer

/-- The message of an `nng_ctx_send` and the pipe, unless it goes to an extra context. -/
def Effect.sent : Effect → Option (Option ℕ × Msg)
  | .deliver pid m | .reply pid m => some (some pid, m)
  | .extraSend m => some (none, m)
  | _ => none

def recipients (nng : Nng) (st : Store) (topic : Bytes) : List ℕ :=
  (nng.dbtreeFindClients st.db topic).filter (· ≠ 0) ++
    (nng.dbtreeFindSharedClients st.db topic).filter (· ≠ 0)

section Routing

variable {nng : Nng} {conf : Conf}

theorem packet_retainMsg (nng : Nng) (env : PubEnv) (s : PubState) :
    SameParts s.packet (retainMsg nng env s).2 := by
  unfold retainMsg
  dsimp only
  split_ifs
  · exact packet_encodePubMessage nng _ s.packet
  · exact packet_encodePubMessage nng _ s.packet
  · exact packet_encodePubMessage nng _ s.packet
  · exact SameParts.refl s.packet

theorem packet_handlePubRetain (nng : Nng) (conf : Conf) (env : PubEnv) (topic : Bytes)
    (s : PubState) : SameParts s.packet (handlePubRetain nng conf env topic s).packet := by
  have hsame := packet_retainMsg nng env s
  unfold handlePubRetain
  rcases hret : retainMsg nng env s with ⟨ret, pkt⟩
  rw [hret] at hsame
  split_ifs
  · unfold handlePubRetainSqlite
    split_ifs <;> exact SameParts.refl s.packet
  · cases ret with
    | none => exact hsame
    | some m => exact hsame
  · exact SameParts.refl s.packet
  · exact SameParts.refl s.packet

/-- A message that is accepted, or denied with the code of an accepted one: whom it is for and what
is left of its packet. -/
theorem Arrival.handlePub_accepted {st : Store} {x : Arrival}
    (hcode : (x.handlePub nng conf st).1 = ReasonCode.success) :
    ∃ t, resolve nng conf x.env.pub x.version false (pubStart st x.publishWork) = (none, t) ∧
      (x.handlePub nng conf st).2.work.msgInfos =
        (if aclDenies nng conf x.msg.connParam t.topic then [] else recipients nng st t.topic) ∧
      SameParts t.packet (x.handlePub nng conf st).2.packet := by
  rcases handlePub_cases nng conf x.env.pub x.version false st x.publishWork with
    ⟨c, t, hres, heq⟩ | ⟨t, hres, hacl, heq⟩ | ⟨t, hres, hacl, heq⟩
  · rw [Arrival.handlePub, heq] at hcode
    exact absurd hcode (resolve_return hres)
  all_goals
    have hframe := frame_of_resolve hres
    have hcp : t.work.cparam = x.msg.connParam := by rw [hframe.work]; rfl
    have hinfos : t.work.msgInfos = [] := by rw [hframe.work]; rfl
    refine ⟨t, hres, ?_⟩
    rw [Arrival.handlePub, heq]
  · rw [if_pos (hcp ▸ hacl.2)]
    exact ⟨hinfos, SameParts.refl t.packet⟩
  · have hallow : ¬ aclDenies nng conf x.msg.connParam t.topic = true :=
      fun hdeny => hacl ⟨rfl, by rwa [hcp]⟩
    rw [if_neg hallow, routeStep_eq]
    refine ⟨?_, packet_handlePubRetain nng conf x.env.pub t.topic (routed nng t)⟩
    rw [(frame_handlePubRetain nng conf x.env.pub t.topic (routed nng t)).work]
    change foreachClient (nng.dbtreeFindSharedClients t.store.db t.topic)
      (foreachClient (nng.dbtreeFindClients t.store.db t.topic) t.work.msgInfos) = _
    rw [hinfos, hframe.db]
    rfl

end Routing

section Wait

variable {nng : Nng} (conf : Conf) (h : SubHandlers) {env : StepEnv} {s : Sys}

theorem sent_forwards (w : Work) :
    (bridgeEffects nng conf env w ++ nngEffects nng conf w).filterMap Effect.sent = [] := by
  apply List.filterMap_eq_nil_iff.mpr
  intro e he
  unfold bridgeEffects nngEffects at he
  rcases List.mem_append.mp he with he | he
  · split_ifs at he
    · rcases List.mem_append.mp he with he | he <;> obtain ⟨f, -, rfl⟩ := List.mem_map.mp he <;> rfl
    · obtain ⟨f, -, rfl⟩ := List.mem_map.mp (List.append_nil _ ▸ he)
      rfl
    · cases he
  · split_ifs at he
    · obtain ⟨b, -, rfl⟩ := List.mem_map.mp he
      rfl
    · cases he

theorem sent_deliver (m : Msg) (pids : List ℕ) :
    (pids.map (fun pid => Effect.deliver pid m)).filterMap Effect.sent =
      pids.map (fun pid => (some pid, m)) := by
  induction pids with
  | nil => rfl
  | cons pid pids ih => exact congrArg ((some pid, m) :: ·) ih

/-- The message of the work can be encoded, within the largest remaining length. -/
structure Encodes (nng : Nng) (w : Work) : Prop where
  ok : (encodePubMessage nng (w.msg.getD Msg.alloc) w.packet PacketType.publish).ok = true
  fits : (encodePubMessage nng (w.msg.getD Msg.alloc) w.packet
    PacketType.publish).msg.body.length ≤ 268435455

theorem log_serverCb_wait (hstate : s.work.state = .wait)
    (htype : (s.work.msg.getD Msg.alloc).getType = PacketType.publish) (hok : env.result = .ok) :
    (serverCb nng conf h env s).log = (forwardAll nng conf env (encodeAndDeliver nng s)).log := by
  have hcb : serverCb nng conf h env s = waitStep nng conf env s := by rw [serverCb, hstate]
  rw [hcb, waitStep_ok htype hok]
  dsimp only
  split_ifs <;> rfl

/-- WAIT sends the encoded message once to each entry of `msg_infos`, and nothing else. -/
theorem sent_waitStep (hstate : s.work.state = .wait)
    (htype : (s.work.msg.getD Msg.alloc).getType = PacketType.publish) (hok : env.result = .ok)
    (henc : Encodes nng s.work) :
    let m := (encodePubMessage nng (s.work.msg.getD Msg.alloc) s.work.packet PacketType.publish).msg
    ∃ es, (serverCb nng conf h env s).log = s.log ++ es ∧
      es.filterMap Effect.sent = s.work.msgInfos.map (fun pid => (some pid, m)) := by
  intro m
  have hdel : (encodeAndDeliver nng s).log =
      s.log ++ s.work.msgInfos.map (fun pid => .deliver pid m) := by
    rw [encodeAndDeliver]
    dsimp only
    rw [if_pos henc.ok]
    rfl
  have hlog : (serverCb nng conf h env s).log = _ := log_serverCb_wait conf h hstate htype hok
  refine ⟨_, hlog.trans ((congrArg (· ++ _) hdel).trans (List.append_assoc _ _ _)), ?_⟩
  rw [List.filterMap_append, sent_deliver, sent_forwards, List.append_nil]

end Wait

section Accepted

variable {nng : Nng} {conf : Conf} {h : SubHandlers} {st : Store} {x : Arrival}

/-- A message that is accepted waits with what `handle_pub` left in the work. -/
theorem Arrival.run_accepted (hpub : x.msg.cmdType = .publish)
    (hcode : (x.handlePub nng conf st).1 = ReasonCode.success) :
    let w := (x.run nng conf h st).work
    w.state = .wait ∧ w.msg = some (x.msg.stamp x.version) ∧
      w.packet = (x.handlePub nng conf st).2.packet ∧
      w.msgInfos = (x.handlePub nng conf st).2.work.msgInfos := by
  have hproto : (x.handlePub nng conf st).2.work.proto = .mqttBroker := Arrival.proto_handlePub
  have hmsg : (x.handlePub nng conf st).2.work.msg = some (x.msg.stamp x.version) := by
    rw [Arrival.handlePub, work_handlePub]
    rfl
  rw [Arrival.run_publish hpub, afterPublish]
  -- from here on the call is opaque, only the fields of its work matter
  generalize x.handlePub nng conf st = r at hcode hproto hmsg ⊢
  dsimp only
  rw [hproto, hcode]
  exact ⟨rfl, hmsg, rfl, rfl⟩

end Accepted

/-- The step from `s` to `s'` sends a message to the pipes and to nobody else, and the message
decodes to the one of the client under the topic. -/
structure Delivers (nng : Nng) (x : Arrival) (topic : Bytes) (pids : List ℕ) (s s' : Sys)
    (m : Msg) : Prop where
  sent : ∃ es, s'.log = s.log ++ es ∧
    es.filterMap Effect.sent = pids.map (fun pid => (some pid, m))
  decodes : (decodePubMessage nng m x.version PubPacket.zalloc).code = ReasonCode.success
  same : SamePublish { (x.publishWork.decoding nng x.version).packet with
    topicBody := some topic, topicLen := topic.length }
    (decodePubMessage nng m x.version PubPacket.zalloc).packet
  packetId : (decodePubMessage nng m x.version PubPacket.zalloc).packet.packetId =
    (x.publishWork.decoding nng x.version).packet.packetId

theorem Delivers.pids_eq {nng : Nng} {x : Arrival} {topic topic' : Bytes} {pids pids' : List ℕ}
    {s s' : Sys} {m m' : Msg} (h : Delivers nng x topic pids s s' m)
    (h' : Delivers nng x topic' pids' s s' m') : pids = pids' := by
  obtain ⟨es, hlog, hsent⟩ := h.sent
  obtain ⟨es', hlog', hsent'⟩ := h'.sent
  obtain rfl : es = es' := List.append_cancel_left (hlog.symm.trans hlog')
  have hpids := congrArg (List.map Prod.fst) (hsent.symm.trans hsent')
  rw [List.map_map, List.map_map] at hpids
  exact List.map_injective_iff.mpr (fun _ _ => Option.some.inj) hpids

/-- What a PUBLISH that returns `SUCCESS` is sent to, whether it is accepted or denied. -/
theorem Arrival.delivers {nng : Nng} (hlaw : nng.LawfulStr) (hprops : nng.PropsInverse)
    (hvar : nng.VarintInverse) (hkind : nng.ChecksByKind) (conf : Conf) (h : SubHandlers)
    (events : List ClientEvent) {x : Arrival} (hpub : x.msg.cmdType = .publish)
    (hcode : (x.handlePub nng conf (runEvents nng conf h Store.empty events)).1 =
      ReasonCode.success)
    (henc : Encodes nng (x.run nng conf h (runEvents nng conf h Store.empty events)).work)
    {env : StepEnv} (hok : env.result = .ok) :
    let st := runEvents nng conf h Store.empty events
    let s := x.run nng conf h st
    s.work.state = .wait ∧
      ∃ topic m, ProcessedUnder nng conf st x topic ∧
        Delivers nng x topic
          (if aclDenies nng conf x.msg.connParam topic then [] else recipients nng st topic)
          s (serverCb nng conf h env s) m := by
  intro st s
  obtain ⟨hstate, hmsg, hpacket, hlist⟩ := Arrival.run_accepted (h := h) hpub hcode
  obtain ⟨t, hres, hinfos, hsame⟩ := Arrival.handlePub_accepted hcode
  obtain ⟨htype, hacc, htopic, hpkt⟩ := Arrival.resolved hlaw hres
  have hdecoded : (x.publishWork.decoding nng x.version).packet =
      acceptedPacket nng (x.msg.stamp x.version) x.version := by
    have hdec : x.publishWork.decoding nng x.version = _ := hacc.decodePubMessage_eq htype
    rw [hdec]
  have hsame' : SameParts { acceptedPacket nng (x.msg.stamp x.version) x.version with
      topicBody := some t.topic, topicLen := t.topic.length } s.work.packet := by
    rw [← hpkt]
    exact hpacket ▸ hsame
  have hget : s.work.msg.getD Msg.alloc = x.msg.stamp x.version := by rw [hmsg, Option.getD_some]
  obtain ⟨hencok, hfits⟩ := henc
  have hsent := sent_waitStep conf h hstate (hget ▸ htype) hok ⟨hencok, hfits⟩
  rw [hget] at hencok hfits hsent
  obtain ⟨htype', hcode', hsame''⟩ :=
    decode_reencoded hlaw hprops hvar hkind htype hacc htopic hsame' _ rfl hencok hfits
  refine ⟨hstate, t.topic, _, ⟨t, hres, rfl⟩, ?_, hcode', ?_, ?_⟩
  · rw [← hinfos, ← hlist]
    exact hsent
  · rw [hdecoded]
    exact hsame''
  · rw [hdecoded]
    by_cases hq : ((x.msg.stamp x.version).fixedHeader nng).qos > 0
    · exact hsame''.packetId hq
    · have hq' := packetId_of_qos_zero htype' hcode' (by rw [hsame''.qos]; exact hq)
      exact hq'.trans (if_neg hq).symm

/-- A PUBLISH for which `handle_pub` returns `SUCCESS` is delivered to the subscribers of the topic
it is processed under, in their order, exactly when the access control does not deny the topic or
there are none. -/
theorem accepted_publish_delivered_iff {nng : Nng} (hlaw : nng.LawfulStr)
    (hprops : nng.PropsInverse) (hvar : nng.VarintInverse) (hkind : nng.ChecksByKind) (conf : Conf)
    (h : SubHandlers) (events : List ClientEvent) {x : Arrival} (hpub : x.msg.cmdType = .publish)
    (hcode : (x.handlePub nng conf (runEvents nng conf h Store.empty events)).1 =
      ReasonCode.success)
    (henc : Encodes nng (x.run nng conf h (runEvents nng conf h Store.empty events)).work)
    {env : StepEnv} (hok : env.result = .ok) :
    let st := runEvents nng conf h Store.empty events
    let s := x.run nng conf h st
    ∃ topic, ProcessedUnder nng conf st x topic ∧
      ((s.work.state = .wait ∧ ∃ m, Delivers nng x topic (recipients nng st topic) s
          (serverCb nng conf h env s) m) ↔
        aclDenies nng conf x.msg.connParam topic = false ∨ recipients nng st topic = []) := by
  intro st s
  obtain ⟨hstate, topic, m, hproc, hdel⟩ :=
    Arrival.delivers hlaw hprops hvar hkind conf h events hpub hcode henc hok
  refine ⟨topic, hproc, ?_⟩
  constructor
  · rintro ⟨-, m', hdel'⟩
    have hpids := hdel'.pids_eq hdel
    cases hacl : aclDenies nng conf x.msg.connParam topic with
    | false => exact Or.inl rfl
    | true =>
      rw [hacl, if_pos rfl] at hpids
      exact Or.inr hpids
  · intro hcases
    have hpids : (if aclDenies nng conf x.msg.connParam topic then []
        else recipients nng st topic) = recipients nng st topic := by
      rcases hcases with hallow | hnone
      · rw [hallow, if_neg Bool.false_ne_true]
      · rw [hnone, ite_self]
    refine ⟨hstate, m, ?_⟩
    rw [← hpids]
    exact hdel

def oneSubscriber (topic : Bytes) : ClientEvent := .subscriptions [(topic, 5)] (fun _ => none)

theorem plain_publish_delivered :
    let x := Arrival.ofPublish (simplePublish (ascii "a")) ⟨false, true, 0⟩ rfl
    let st := runEvents Nng.reference Conf.bare SubHandlers.idle Store.empty
      [oneSubscriber (ascii "a")]
    let s := x.run Nng.reference Conf.bare SubHandlers.idle st
    recipients Nng.reference st (ascii "a") = [5] ∧
      ∃ topic, ProcessedUnder Nng.reference Conf.bare st x topic ∧ s.work.state = .wait ∧
        ∃ m, Delivers Nng.reference x topic (recipients Nng.reference st topic) s
          (serverCb Nng.reference Conf.bare SubHandlers.idle x.stepEnv s) m := by
  intro x st s
  have hst : st = runEvents Nng.reference Conf.bare SubHandlers.idle Store.empty
      [oneSubscriber (ascii "a")] := rfl
  have hs : s = x.run Nng.reference Conf.bare SubHandlers.idle st := rfl
  clear_value s st
  obtain ⟨topic, hproc, hiff⟩ := accepted_publish_delivered_iff Reference.lawfulStr
    Reference.propsInverse Reference.varintInverse Reference.checksByKind Conf.bare
    SubHandlers.idle [oneSubscriber (ascii "a")] (x := x) rfl (by decide) ⟨by decide, by decide⟩
    (show x.stepEnv.result = .ok from rfl)
  rw [hs, hst]
  exact ⟨by decide, topic, hproc, hiff.mpr (Or.inl rfl)⟩

/-- A message that is denied with the action `disconnect` has the code `SUCCESS` and is sent to
nobody, although its topic has a subscriber. -/
theorem denied_publish_not_delivered :
    let conf := denyingConf .disconnect
    let x := Arrival.ofPublish (simplePublish (ascii "a")) ⟨false, true, 0⟩ rfl
    let st := runEvents Nng.reference conf SubHandlers.idle Store.empty [oneSubscriber (ascii "a")]
    let s := x.run Nng.reference conf SubHandlers.idle st
    (x.handlePub Nng.reference conf st).1 = ReasonCode.success ∧
      ProcessedUnder Nng.reference conf st x (ascii "a") ∧
      Encodes Nng.reference s.work ∧ recipients Nng.reference st (ascii "a") = [5] ∧
      ∀ m, ¬ Delivers Nng.reference x (ascii "a") (recipients Nng.reference st (ascii "a")) s
        (serverCb Nng.reference conf SubHandlers.idle x.stepEnv s) m := by
  intro conf x st s
  have hlog : (serverCb Nng.reference conf SubHandlers.idle x.stepEnv s).log =
      s.log ++ [.bridgeForward ⟨0, some (ascii "a"), none, 0, false, 0, false, none⟩] := by decide
  refine ⟨by decide, ⟨_, Prod.ext (by decide) rfl, by decide⟩, ⟨by decide, by decide⟩, by decide,
    ?_⟩
  intro m hdel
  obtain ⟨es, hes, hsent⟩ := hdel.sent
  rw [hlog] at hes
  obtain rfl := List.append_cancel_left hes
  cases hsent

end NanoMQ
