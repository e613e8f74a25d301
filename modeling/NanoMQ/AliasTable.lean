import NanoMQ.PubSteps

/-!
# The topic aliases through `handle_pub`

The alias table changes in one place only: a message of MQTT 5 that was decoded and authorized,
carries a valid alias and names its topic binds the one to the other, whatever becomes of it later.
-/

namespace NanoMQ

open ByteBuffer EarlyReturn

def Work.decoding (nng : Nng) (proto : ProtoVer) (w : Work) : Decoded :=
  decodePubMessage nng (w.msg.getD Msg.alloc) proto PubPacket.zalloc

structure BindsAlias (nng : Nng) (conf : Conf) (env : PubEnv) (proto : ProtoVer) (w : Work)
    (a : UInt16) (topic : Bytes) : Prop where
  version : proto = ProtoVer.v5
  decoded : (w.decoding nng proto).code = ReasonCode.success
  type : (w.decoding nng proto).packet.fixedHeader.packetType = PacketType.publish
  authorized : ¬ HttpRefuses conf env (w.decoding nng proto).packet.topicBody
  carries : (propertyGetValue (w.decoding nng proto).packet.properties topicAliasId).map
    PropertyValue.asU16 = some a
  valid : ValidAlias conf a
  named : (w.decoding nng proto).packet.Named
  topic : cstr ((w.decoding nng proto).packet.topicBody.getD []) = topic

section Steps

variable {nng : Nng} {conf : Conf} {env : PubEnv} {proto : ProtoVer} {isEvent : Bool}
  {s t : PubState} {o : Option ReasonCode}

theorem decodeStep_store (h : decodeStep nng proto isEvent s = (o, t)) : t.store = s.store := by
  unfold decodeStep at h
  dsimp only at h
  split_ifs at h <;> cases h <;> rfl

/-- The alias step leaves the table alone unless a valid alias comes with a topic. -/
theorem aliasStep_store (h : aliasStep conf proto s = (o, t)) :
    t.store = s.store ∨
      ∃ v, proto = ProtoVer.v5 ∧ propertyGetValue s.packet.properties topicAliasId = some v ∧
        ValidAlias conf v.asU16 ∧ s.packet.Named ∧
        t.store = s.store.insertAtpair s.work.pid v.asU16 s.topic := by
  obtain ⟨rfl, -⟩ | ⟨v, hv, hp, hvalue⟩ := aliasStep_cases h
  · exact Or.inl rfl
  · by_cases ha : ValidAlias conf v.asU16
    · by_cases hn : s.packet.Named
      · rw [aliasValueStep_named ha hn] at hvalue
        cases hvalue
        exact Or.inr ⟨v, hv, hp, ha, hn, rfl⟩
      · left
        rw [aliasValueStep_unnamed ha hn] at hvalue
        cases htp : s.store.atpairs s.work.pid v.asU16 <;> rw [htp] at hvalue <;> cases hvalue <;>
          rfl
    · rw [aliasValueStep_invalid ha] at hvalue
      cases hvalue
      exact Or.inl rfl

theorem aliasStep_carries {v : PropertyValue} (hv : proto = ProtoVer.v5)
    (hp : propertyGetValue s.packet.properties topicAliasId = some v) :
    aliasStep conf proto s = aliasValueStep conf v.asU16 s := by
  rw [aliasStep, if_pos hv, hp]

end Steps

section Call

variable {nng : Nng} {conf : Conf} {env : PubEnv} {proto : ProtoVer} {isEvent : Bool}
  {st : Store} {w : Work}

/-- A call that does not bind leaves the aliases as they are. -/
theorem store_resolve_of_keeps (hd : w.proto ≠ .mqttBridge ∨ isEvent = true)
    (hno : ∀ a topic, ¬ BindsAlias nng conf env proto w a topic) {o : Option ReasonCode}
    {t : PubState} (h : resolve nng conf env proto isEvent (pubStart st w) = (o, t)) :
    t.store = st := by
  rcases andThen_cases h with ⟨r, -, hdec⟩ | ⟨s₁, hdec, h₁⟩
  · exact decodeStep_store hdec
  have hst₁ : s₁.store = st := decodeStep_store hdec
  obtain ⟨hcode, hs₁⟩ := decodeStep_go hd hdec
  have hpkt₁ : s₁.packet = (w.decoding nng proto).packet := by rw [hs₁]; rfl
  rcases andThen_cases h₁ with ⟨r, -, htype⟩ | ⟨s₁', htype, h₂⟩
  · rw [(typeStep_cases htype).1, hst₁]
  obtain ⟨rfl, ⟨hret, -⟩ | ⟨-, hpub⟩⟩ := typeStep_cases htype
  · cases hret
  rcases andThen_cases h₂ with ⟨r, -, hauth⟩ | ⟨s₂, hauth, h₃⟩
  · exact (authHttpStep_spec hauth).2.1.trans hst₁
  obtain ⟨hw₂, hst₂, hhttp⟩ := authHttpStep_spec hauth
  have hpkt₂ : s₂.packet = (w.decoding nng proto).packet := by
    rw [PubState.packet, hw₂]
    exact hpkt₁
  have halias : ∀ {o t}, aliasStep conf proto s₂ = (o, t) → t.store = st := by
    intro o t hstep
    rcases aliasStep_store hstep with hkeep | ⟨v, hv, hp, hvalid, hn, -⟩
    · rw [hkeep, hst₂, hst₁]
    · rw [hpkt₂] at hp hn
      rw [hpkt₁] at hpub hhttp
      refine absurd ⟨hv, hcode, hpub, hhttp.mp rfl, ?_, hvalid, hn, rfl⟩ (hno v.asU16 _)
      rw [hp]
      rfl
  rcases andThen_cases h₃ with ⟨r, -, hstep⟩ | ⟨s₃, hstep, h₄⟩
  · exact halias hstep
  · rw [(topicStep_cases h₄).1]
    exact halias hstep

/-- A message that is decoded and authorized comes to the alias step with its packet. -/
theorem resolve_to_alias (isEvent : Bool) (st : Store)
    (hd : w.proto ≠ .mqttBridge ∨ isEvent = true)
    (hcode : (w.decoding nng proto).code = ReasonCode.success)
    (hpub : (w.decoding nng proto).packet.fixedHeader.packetType = PacketType.publish)
    (hauth : ¬ HttpRefuses conf env (w.decoding nng proto).packet.topicBody) :
    ∃ s, s.work = { w with msgInfos := [], pubPacket := some (w.decoding nng proto).packet } ∧
      s.store = st ∧
      resolve nng conf env proto isEvent (pubStart st w) =
        andThen (aliasStep conf proto) topicStep s := by
  have hdec : decodeStep nng proto isEvent (pubStart st w) =
      (none, (pubStart st w).setPacket (w.decoding nng proto).packet) := by
    unfold decodeStep
    exact (if_pos hd).trans (if_neg (not_not.mpr hcode))
  have htype : typeStep ((pubStart st w).setPacket (w.decoding nng proto).packet) =
      (none, (pubStart st w).setPacket (w.decoding nng proto).packet) := by
    unfold typeStep
    exact if_neg (not_not.mpr hpub)
  rcases hstep : authHttpStep conf env
    ((pubStart st w).setPacket (w.decoding nng proto).packet) with ⟨o, s⟩
  obtain ⟨hw, hst, hgo⟩ := authHttpStep_spec hstep
  obtain rfl : o = none := hgo.mpr hauth
  refine ⟨s, hw, hst, ?_⟩
  rw [resolve, andThen_of_go hdec, andThen_of_go htype, andThen_of_go hstep]

theorem resolve_of_binds (st : Store) (hd : w.proto ≠ .mqttBridge ∨ isEvent = true)
    {a : UInt16} {topic : Bytes} (hb : BindsAlias nng conf env proto w a topic) :
    ∃ t, resolve nng conf env proto isEvent (pubStart st w) = (none, t) ∧
      t.store = st.insertAtpair w.pid a topic := by
  obtain ⟨s, hw, hst, hres⟩ := resolve_to_alias isEvent st hd hb.decoded hb.type hb.authorized
  have hpkt : s.packet = (w.decoding nng proto).packet := by rw [PubState.packet, hw]; rfl
  obtain ⟨v, hp, rfl⟩ := Option.map_eq_some_iff.mp hb.carries
  rw [← hpkt] at hp
  have hn : s.packet.Named := hpkt ▸ hb.named
  have halias := (aliasStep_carries hb.version hp).trans (aliasValueStep_named hb.valid hn)
  rw [andThen_of_go halias] at hres
  refine ⟨_, hres.trans (if_neg (Option.isSome_iff_ne_none.mp hn.2)), ?_⟩
  have htopic : s.topic = topic := by rw [PubState.topic, hpkt, hb.topic]
  change s.store.insertAtpair s.work.pid v.asU16 s.topic = _
  rw [hst, hw, htopic]

/-- What happens behind the alias step does not touch the aliases. -/
theorem atpairs_handlePub {o : Option ReasonCode} {t : PubState}
    (h : resolve nng conf env proto isEvent (pubStart st w) = (o, t)) :
    (handlePub nng conf env proto isEvent st w).2.store.atpairs = t.store.atpairs := by
  cases o with
  | some c => rw [handlePub_of_resolve_return h]
  | none =>
    by_cases hacl : AclRefuses nng conf isEvent t
    · rw [handlePub_of_refused h hacl]
    · rw [handlePub_of_routed h hacl, routeStep_eq]
      exact (frame_handlePubRetain nng conf env t.topic (routed nng t)).atpairs

theorem atpairs_of_binds (hd : w.proto ≠ .mqttBridge ∨ isEvent = true) {a : UInt16} {topic : Bytes}
    (hb : BindsAlias nng conf env proto w a topic) :
    (handlePub nng conf env proto isEvent st w).2.store.atpairs =
      (st.insertAtpair w.pid a topic).atpairs := by
  obtain ⟨t, hres, hst⟩ := resolve_of_binds st hd hb
  rw [atpairs_handlePub hres, hst]

theorem atpairs_of_keeps (hd : w.proto ≠ .mqttBridge ∨ isEvent = true)
    (hno : ∀ a topic, ¬ BindsAlias nng conf env proto w a topic) :
    (handlePub nng conf env proto isEvent st w).2.store.atpairs = st.atpairs := by
  rcases hres : resolve nng conf env proto isEvent (pubStart st w) with ⟨o, t⟩
  rw [atpairs_handlePub hres, store_resolve_of_keeps hd hno hres]

theorem atpairs_of_event (nng : Nng) (conf : Conf) (env : PubEnv) (st : Store) (w : Work) :
    (handlePub nng conf env ProtoVer.v311 true st w).2.store.atpairs = st.atpairs := by
  apply atpairs_of_keeps (Or.inr rfl)
  intro a topic hb
  exact absurd hb.version (by decide)

end Call

end NanoMQ
