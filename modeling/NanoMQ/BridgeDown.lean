import NanoMQ.PubSteps
import NanoMQ.Reference
import NanoMQ.Server

/-!
# Messages from a remote broker

A bridge work decodes its message in `bridge_downward_msg_coding`, which may also remap the topic,
and `handle_pub` does not decode again. The function has no way to report that the decoding failed,
so what was decoded by then goes on to be routed: every undecodable message with a topic at its
front that neither the HTTP authorization nor the access control refuses.
-/

namespace NanoMQ

open ByteBuffer EarlyReturn

def publishWork (nng : Nng) (w : Work) (m : Msg) : Work :=
  if w.proto = .mqttBridge then
    let w := bridgeDownwardMsgCoding nng w m
    w.loadPublish (w.msg.getD m)
  else w.loadPublish m

def recvPublish (nng : Nng) (conf : Conf) (env : PubEnv) (st : Store) (w : Work) (m : Msg) :
    ReasonCode × PubState :=
  let w := publishWork nng w m
  handlePub nng conf env w.protoVer false st w

section Received

variable {nng : Nng} {conf : Conf} {h : SubHandlers} {env : StepEnv} {s : Sys}

/-- What a PUBLISH does in the step in which a bridge work receives it. -/
theorem serverCb_recvPublish_bridge {m : Msg} (hstate : s.work.state = .recv)
    (hb : s.work.proto = .mqttBridge) (hok : env.result = .ok) (hmsg : env.msg = some m)
    (htype : m.getType = PacketType.publish)
    (hpub : ((bridgeDownwardMsgCoding nng s.work m).msg.getD m).cmdType = .publish) :
    let r := recvPublish nng conf env.pub s.store s.work m
    serverCb nng conf h env s = afterPublish
      ⟨{ r.2.work with code := r.1 }, r.2.store, s.log ++ r.2.actions.map .table⟩ := by
  have hacc : accepted env.result s.work env.msg = some m := by
    rw [accepted, if_pos (Or.inl hok), hmsg]
  have hne : m.getType ≠ PacketType.connack := by rw [htype]; decide
  have htake : takeMsg nng conf env.result s.work m =
      some (bridgeDownwardMsgCoding nng s.work m,
        (bridgeDownwardMsgCoding nng s.work m).msg.getD m) := by
    unfold takeMsg
    rw [hb]
    dsimp only
    rw [if_neg hne, if_pos htype, if_pos hok]
  rw [serverCb_recv hstate hacc htake, recvMsg, hpub, recvPublish, publishWork, if_pos hb]
  exact recvPublishStep_eq (Prod.eta _).symm

/-- The same for a work of another source, with the message as it takes it over. -/
theorem serverCb_recvPublish {raw m : Msg} {w : Work} (hstate : s.work.state = .recv)
    (hb : s.work.proto ≠ .mqttBridge) (hacc : accepted env.result s.work env.msg = some raw)
    (htake : takeMsg nng conf env.result s.work raw = some (w, m))
    (hpub : m.cmdType = .publish) :
    let r := recvPublish nng conf env.pub s.store w m
    serverCb nng conf h env s = afterPublish
      ⟨{ r.2.work with code := r.1 }, r.2.store, s.log ++ r.2.actions.map .table⟩ := by
  have hw : w.proto ≠ .mqttBridge := by rwa [takeMsg_proto htake]
  rw [serverCb_recv hstate hacc htake, recvMsg, hpub, recvPublish, publishWork, if_neg hw]
  exact recvPublishStep_eq (Prod.eta _).symm

end Received

def publishDecoding (nng : Nng) (w : Work) (m : Msg) : Decoded :=
  let ver := protoverOf m.connParam
  decodePubMessage nng (if w.proto = .mqttBridge then m else m.stamp ver) ver PubPacket.zalloc

def PubAction.routes : PubAction → Bool
  | .authHttp _ _ => false
  | _ => true

def RoutesOnlyDecoded (nng : Nng) (conf : Conf) (env : PubEnv) (st : Store) (w : Work) (m : Msg) :
    Prop :=
  (∃ a ∈ (recvPublish nng conf env st w m).2.actions, a.routes = true) →
    (publishDecoding nng w m).code = ReasonCode.success

structure FrontOk (nng : Nng) (m : Msg) : Prop where
  header : HeaderOk nng m
  topic : nng.IsStr m.body 0 (i32 m.body.length)
  nonempty : get16 m.body 0 ≠ 0

/-- The front of the message is sound, with a topic that nobody refuses. -/
structure LooksRoutable (nng : Nng) (conf : Conf) (env : PubEnv) (m : Msg) : Prop where
  front : FrontOk nng m
  http : ¬ HttpRefuses conf env (some (slice m.body 2 (get16 m.body 0)))
  acl : aclDenies nng conf m.connParam (slice m.body 2 (get16 m.body 0)) = false

/-- A call of a bridge work whose packet holds no properties, as a failed decoding leaves it. -/
structure Undecoded (s : PubState) : Prop where
  bridge : s.work.proto = .mqttBridge
  type : s.packet.fixedHeader.packetType = PacketType.publish
  props : s.packet.properties = none
  len : s.packet.topicBody ≠ none → s.packet.topicLen ≠ 0

section Undecoded

variable {nng : Nng} {conf : Conf} {env : PubEnv} {proto : ProtoVer} {s t : PubState}
  {o : Option ReasonCode}

theorem Undecoded.decodeStep_eq (h : Undecoded s) : decodeStep nng proto false s = (none, s) := by
  unfold decodeStep
  apply if_neg
  simp [h.bridge]

theorem Undecoded.typeStep_eq (h : Undecoded s) : typeStep s = (none, s) := by
  unfold typeStep
  exact if_neg (not_not.mpr h.type)

/-- Without properties there is no alias, and the alias step only looks at the length. -/
theorem aliasStep_of_no_properties (hprops : s.packet.properties = none) :
    aliasStep conf proto s =
      (if proto = ProtoVer.v5 ∧ s.packet.topicLen = 0 then some ReasonCode.protocolError else none,
        s) := by
  unfold aliasStep
  rw [hprops]
  by_cases hv : proto = ProtoVer.v5
  · by_cases hlen : s.packet.topicLen = 0 <;> simp [hv, hlen, propertyGetValue]
  · simp [hv]

/-- The authorization does nothing but ask. -/
theorem authHttpStep_work (h : authHttpStep conf env s = (o, t)) :
    t.work = s.work ∧ ∀ a ∈ t.actions, a.routes = true → a ∈ s.actions := by
  rcases authHttpStep_cases h with ⟨rfl, -, -⟩ | ⟨queue, -, -, rfl, -⟩
  · exact ⟨rfl, fun a ha _ => ha⟩
  · refine ⟨rfl, fun a ha hr => ?_⟩
    rcases List.mem_append.mp ha with h | h
    · exact h
    · rw [List.mem_singleton.mp h] at hr
      cases hr

theorem Undecoded.of_work (h : Undecoded s) (hw : t.work = s.work) : Undecoded t := by
  have hpkt : t.packet = s.packet := by rw [PubState.packet, PubState.packet, hw]
  refine ⟨?_, ?_, ?_, ?_⟩
  · rw [hw]
    exact h.bridge
  · rw [hpkt]
    exact h.type
  · rw [hpkt]
    exact h.props
  · rw [hpkt]
    exact h.len

/-- Before the access control nothing is looked up, kept or bound for such a call. -/
theorem Undecoded.resolve_work (h : Undecoded s)
    (hres : resolve nng conf env proto false s = (o, t)) :
    t.work = s.work ∧ ∀ a ∈ t.actions, a.routes = true → a ∈ s.actions := by
  rw [resolve, andThen_of_go h.decodeStep_eq, andThen_of_go h.typeStep_eq] at hres
  rcases andThen_cases hres with ⟨r, -, hauth⟩ | ⟨s₁, hauth, hrest⟩
  · exact authHttpStep_work hauth
  · obtain ⟨hw, hacts⟩ := authHttpStep_work hauth
    have hprops := (h.of_work hw).props
    rcases andThen_cases hrest with ⟨r, -, halias⟩ | ⟨s₂, halias, htopic⟩
    · rw [aliasStep_of_no_properties hprops] at halias
      obtain rfl : s₁ = t := congrArg Prod.snd halias
      exact ⟨hw, hacts⟩
    · rw [aliasStep_of_no_properties hprops] at halias
      obtain ⟨rfl, -⟩ := topicStep_cases htopic
      obtain rfl : s₁ = t := congrArg Prod.snd halias
      exact ⟨hw, hacts⟩

/-- Such a call reaches the access control when it has a topic that was not refused. -/
theorem Undecoded.resolve_go_iff (h : Undecoded s) :
    (∃ t, resolve nng conf env proto false s = (none, t)) ↔
      s.packet.topicBody ≠ none ∧ ¬ HttpRefuses conf env s.packet.topicBody := by
  constructor
  · rintro ⟨t, hres⟩
    obtain ⟨hw, -⟩ := h.resolve_work hres
    obtain ⟨s₁, s₂, hdec, -, hauth, -, hnull⟩ := resolve_go hres
    obtain rfl : s = s₁ := by
      rw [h.decodeStep_eq] at hdec
      exact congrArg Prod.snd hdec
    have htopic : s.packet.topicBody ≠ none := by
      rwa [PubState.packet, hw] at hnull
    exact ⟨htopic, (authHttpStep_spec hauth).2.2.mp rfl⟩
  · rintro ⟨htopic, hhttp⟩
    rcases hauth : authHttpStep conf env s with ⟨o, s₁⟩
    obtain rfl := (authHttpStep_spec hauth).2.2.mpr hhttp
    have h₁ := h.of_work (authHttpStep_work hauth).1
    have htopic₁ : s₁.packet.topicBody ≠ none := by
      rwa [PubState.packet, (authHttpStep_work hauth).1]
    have halias : aliasStep conf proto s₁ = (none, s₁) := by
      rw [aliasStep_of_no_properties h₁.props, if_neg (fun hbad => h₁.len htopic₁ hbad.2)]
    have hstep : topicStep s₁ = (none, s₁) := if_neg htopic₁
    refine ⟨s₁, ?_⟩
    rw [resolve, andThen_of_go h.decodeStep_eq, andThen_of_go h.typeStep_eq, andThen_of_go hauth,
      andThen_of_go halias, hstep]

/-- Such a call routes its message exactly when neither authorization nor access control refuse
its topic. -/
theorem Undecoded.routes_iff {st : Store} {w : Work} (h : Undecoded (pubStart st w)) :
    (∃ a ∈ (handlePub nng conf env proto false st w).2.actions, a.routes = true) ↔
      w.packet.topicBody ≠ none ∧ ¬ HttpRefuses conf env w.packet.topicBody ∧
        aclDenies nng conf w.cparam (cstr (w.packet.topicBody.getD [])) = false := by
  rcases handlePub_cases nng conf env proto false st w with
    ⟨c, t, hres, heq⟩ | ⟨t, hres, hacl, heq⟩ | ⟨t, hres, hacl, heq⟩
  · rw [heq]
    apply iff_of_false
    · rintro ⟨a, ha, hr⟩
      cases (h.resolve_work hres).2 a ha hr
    · rintro ⟨htopic, hhttp, -⟩
      obtain ⟨t', hgo⟩ := h.resolve_go_iff.mpr ⟨htopic, hhttp⟩
      rw [hres] at hgo
      cases hgo
  · obtain ⟨hw, hacts⟩ := h.resolve_work hres
    rw [heq]
    apply iff_of_false
    · rintro ⟨a, ha, hr⟩
      cases hacts a ha hr
    · rintro ⟨-, -, hallow⟩
      have hdeny := hacl.2
      rw [PubState.topic, PubState.packet, hw] at hdeny
      exact Bool.false_ne_true (hallow.symm.trans hdeny)
  · obtain ⟨hw, -⟩ := h.resolve_work hres
    rw [heq]
    apply iff_of_true
    · obtain ⟨acts, hacts, hfind, -⟩ := actions_routeStep nng conf env t
      refine ⟨.findClients t.topic, ?_, rfl⟩
      rw [hacts]
      exact List.mem_append_right _ hfind
    · obtain ⟨htopic, hhttp⟩ := h.resolve_go_iff.mp ⟨t, hres⟩
      have hallow : aclDenies nng conf t.work.cparam t.topic = false :=
        Bool.eq_false_iff.mpr fun hdeny => hacl ⟨rfl, hdeny⟩
      rw [PubState.topic, PubState.packet, hw] at hallow
      exact ⟨htopic, hhttp, hallow⟩

end Undecoded

section Message

variable {nng : Nng} {conf : Conf} {env : PubEnv} {st : Store} {w : Work} {m : Msg}

/-- What a failed decoding leaves: no properties, and the topic if the front of the message is
sound. -/
theorem packet_of_failed (hlaw : nng.LawfulStr) (hpub : m.getType = PacketType.publish)
    {ver : ProtoVer} (hfail : (decodePubMessage nng m ver PubPacket.zalloc).code ≠
      ReasonCode.success) :
    let pkt := (decodePubMessage nng m ver PubPacket.zalloc).packet
    pkt.properties = none ∧
      (pkt.topicBody = none ∧ ¬ FrontOk nng m ∨
        pkt.topicBody = some (slice m.body 2 (get16 m.body 0)) ∧ pkt.topicLen ≠ 0 ∧
          FrontOk nng m) := by
  by_cases hhead : HeaderOk nng m
  · have hkeep : KeepsTopic _ (decodePubMessage nng m ver PubPacket.zalloc) :=
      keepsTopic_decodePubMessage hpub hhead
    refine ⟨hkeep.properties hfail, ?_⟩
    rw [hkeep.topicBody, hkeep.topicLen]
    change (topicStr nng m).dest = none ∧ _ ∨ (topicStr nng m).dest = _ ∧
      u32 (topicStr nng m).len ≠ 0 ∧ _
    by_cases hstr : nng.IsStr m.body 0 (i32 m.body.length)
    · have hlt := get16_lt m.body 0
      rw [topicStr_of_isStr hlaw hstr]
      dsimp only
      rw [u32_natCast (by omega)]
      by_cases hz : get16 m.body 0 = 0
      · exact Or.inl ⟨if_pos hz, fun hfront => hfront.nonempty hz⟩
      · exact Or.inr ⟨if_neg hz, hz, hhead, hstr, hz⟩
    · left
      exact ⟨(hlaw.copyn_invalid _ _ _ hstr).1, fun hfront => hstr hfront.topic⟩
  · rw [decodePubMessage_of_bad_header hhead]
    exact ⟨rfl, Or.inl ⟨rfl, fun hfront => hhead hfront.header⟩⟩

theorem publishWork_of_failed (hb : w.proto = .mqttBridge)
    (hfail : (publishDecoding nng w m).code ≠ ReasonCode.success) :
    publishWork nng w m =
      { w.loadPublish m with pubPacket := some (publishDecoding nng w m).packet } := by
  rw [publishDecoding, if_pos hb] at hfail ⊢
  have hcode : bridgeDownwardMsgCoding nng w m =
      { w.load m with
        pubPacket := some
          (decodePubMessage nng m (protoverOf m.connParam) PubPacket.zalloc).packet } := by
    unfold bridgeDownwardMsgCoding
    exact if_pos hfail
  rw [publishWork, if_pos hb, hcode]
  rfl

theorem undecoded_of_failed (hlaw : nng.LawfulStr) (hpub : m.getType = PacketType.publish)
    (hb : w.proto = .mqttBridge) (hfail : (publishDecoding nng w m).code ≠ ReasonCode.success) :
    Undecoded (pubStart st (publishWork nng w m)) := by
  have hwork := publishWork_of_failed hb hfail
  have hpkt : (publishWork nng w m).packet = (publishDecoding nng w m).packet := by rw [hwork]; rfl
  rw [publishDecoding, if_pos hb] at hfail hpkt
  obtain ⟨hprops, hcases⟩ := packet_of_failed hlaw hpub hfail
  refine ⟨?_, ?_, ?_, ?_⟩
  · rw [hwork]
    exact hb
  · change (publishWork nng w m).packet.fixedHeader.packetType = _
    rw [hpkt, fixedHeader_decodePubMessage]
    exact hpub
  · change (publishWork nng w m).packet.properties = none
    rw [hpkt, hprops]
  · change (publishWork nng w m).packet.topicBody ≠ none →
      (publishWork nng w m).packet.topicLen ≠ 0
    rw [hpkt]
    intro htopic
    rcases hcases with ⟨hnone, -⟩ | ⟨-, hlen, -⟩
    · exact absurd hnone htopic
    · exact hlen

/-- A bridge work routes a message that it could not decode whenever nothing but its decoding
speaks against it. -/
theorem routes_of_failed_iff (hlaw : nng.LawfulStr) (hpub : m.getType = PacketType.publish)
    (hb : w.proto = .mqttBridge) (hfail : (publishDecoding nng w m).code ≠ ReasonCode.success) :
    (∃ a ∈ (recvPublish nng conf env st w m).2.actions, a.routes = true) ↔
      LooksRoutable nng conf env m := by
  have hund : Undecoded (pubStart st (publishWork nng w m)) :=
    undecoded_of_failed hlaw hpub hb hfail
  have hwork := publishWork_of_failed hb hfail
  have hdec : publishDecoding nng w m =
      decodePubMessage nng m (protoverOf m.connParam) PubPacket.zalloc := by
    rw [publishDecoding, if_pos hb]
  have hpkt : (publishWork nng w m).packet = (publishDecoding nng w m).packet := by rw [hwork]; rfl
  have hcp : (publishWork nng w m).cparam = m.connParam := by rw [hwork]; rfl
  rw [hdec] at hfail hpkt
  obtain ⟨-, hcases⟩ := packet_of_failed hlaw hpub hfail
  refine hund.routes_iff.trans ?_
  rw [hpkt, hcp]
  rcases hcases with ⟨hnone, hbad⟩ | ⟨hsome, -, hfront⟩
  · rw [hnone]
    exact iff_of_false (fun h => h.1 rfl) (fun h => hbad h.front)
  · have hcstr : cstr (slice m.body 2 (get16 m.body 0)) = slice m.body 2 (get16 m.body 0) :=
      cstr_of_not_mem (hlaw.utf8_no_nul _ hfront.topic.2)
    rw [hsome, Option.getD_some, hcstr]
    constructor
    · rintro ⟨-, hhttp, hacl⟩
      exact ⟨hfront, hhttp, hacl⟩
    · rintro ⟨-, hhttp, hacl⟩
      exact ⟨Option.some_ne_none _, hhttp, hacl⟩

theorem publishWork_of_not_bridge (nng : Nng) (m : Msg) (hb : w.proto ≠ .mqttBridge) :
    publishWork nng w m = w.loadPublish m := if_neg hb

/-- Every other work routes nothing before its own decoding. -/
theorem decoded_of_routes (hb : w.proto ≠ .mqttBridge)
    (h : ∃ a ∈ (recvPublish nng conf env st w m).2.actions, a.routes = true) :
    (publishDecoding nng w m).code = ReasonCode.success := by
  rw [publishDecoding, if_neg hb]
  by_contra hfail
  obtain ⟨a, ha, -⟩ := h
  rw [recvPublish, publishWork_of_not_bridge nng m hb] at ha
  change a ∈ (handlePub nng conf env (protoverOf m.connParam) false st _).2.actions at ha
  rw [handlePub_of_failed conf env st (w := w.loadPublish m) (Or.inl hb) hfail] at ha
  cases ha

end Message

/-- The tables see decoded messages only, unless one comes over a bridge, fails a check of the
decoder and has a topic at its front that nobody refuses. -/
theorem routesOnlyDecoded_iff {nng : Nng} (hlaw : nng.LawfulStr) (conf : Conf) (env : PubEnv)
    (st : Store) (w : Work) {m : Msg} (hpub : m.getType = PacketType.publish) :
    RoutesOnlyDecoded nng conf env st w m ↔
      w.proto ≠ .mqttBridge ∨ Accepts nng m (protoverOf m.connParam) ∨
        ¬ LooksRoutable nng conf env m := by
  by_cases hb : w.proto = .mqttBridge
  · have hacc : (publishDecoding nng w m).code = ReasonCode.success ↔
        Accepts nng m (protoverOf m.connParam) := by
      rw [publishDecoding, if_pos hb]
      exact decodePubMessage_success_iff hpub _
    by_cases hok : (publishDecoding nng w m).code = ReasonCode.success
    · exact iff_of_true (fun _ => hok) (Or.inr (Or.inl (hacc.mp hok)))
    · unfold RoutesOnlyDecoded
      rw [routes_of_failed_iff hlaw hpub hb hok, hacc]
      simp [hb, hacc.not.mp hok]
  · exact iff_of_true (decoded_of_routes hb) (Or.inl hb)

theorem routesOnlyDecoded_plain_topic :
    RoutesOnlyDecoded Nng.reference Conf.bare ⟨false, true, 0⟩ Store.empty
      (Work.alloc .mqttBridge) (simplePublish (ascii "a")) := by
  apply (routesOnlyDecoded_iff Reference.lawfulStr _ _ _ _ rfl).mpr
  refine Or.inr (Or.inl ?_)
  exact (decodePubMessage_success_iff rfl PubPacket.zalloc).mp (by decide)

/-- A message under the topic `+` is not decoded, and subscribers of `+` are looked up for it. -/
theorem wildcard_topic_routed_undecoded :
    let w := Work.alloc .mqttBridge
    let m := simplePublish (ascii "+")
    (publishDecoding Nng.reference w m).code = ReasonCode.protocolError ∧
      (recvPublish Nng.reference Conf.bare ⟨false, true, 0⟩ Store.empty w m).2.actions =
        [.findClients (ascii "+"), .findSharedClients (ascii "+")] ∧
      ¬ RoutesOnlyDecoded Nng.reference Conf.bare ⟨false, true, 0⟩ Store.empty w m := by
  intro w m
  have hfail : (publishDecoding Nng.reference w m).code = ReasonCode.protocolError := by decide
  have hacts : (recvPublish Nng.reference Conf.bare ⟨false, true, 0⟩ Store.empty w m).2.actions =
      [.findClients (ascii "+"), .findSharedClients (ascii "+")] := by decide
  refine ⟨hfail, hacts, fun h => ?_⟩
  have hok := h ⟨.findClients (ascii "+"), by rw [hacts]; exact List.mem_cons_self, rfl⟩
  exact ReasonCode.protocolError_ne_success (hfail.symm.trans hok)

end NanoMQ
