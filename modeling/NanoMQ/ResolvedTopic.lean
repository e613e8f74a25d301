import NanoMQ.SeenPacket
import NanoMQ.TopicAlias

/-!
# The topic a message is processed under

Every topic that gets past the alias step is one that a decoder accepted: the topic of the message
itself, or that of an earlier message of the connection. So the packet that is handed on can be
encoded again.
-/

namespace NanoMQ

open ByteBuffer BindingHistory

structure TopicOk (nng : Nng) (topic : Bytes) : Prop where
  ne_nil : topic ≠ []
  lt : topic.length < 65536
  utf8 : nng.utf8Check topic = true
  no_plus : 0x2b ∉ topic
  no_hash : 0x23 ∉ topic

section Decoded

variable {nng : Nng} {m : Msg} {ver : ProtoVer}

theorem TopicOk.cstr_eq (hlaw : nng.LawfulStr) {topic : Bytes} (h : TopicOk nng topic) :
    cstr topic = topic :=
  cstr_of_not_mem (hlaw.utf8_no_nul _ h.utf8)

theorem decoded_topicOk (hlaw : nng.LawfulStr) (hacc : Accepts nng m ver) {topic : Bytes}
    (hbody : (acceptedPacket nng m ver).topicBody = some topic) :
    TopicOk nng topic ∧ (acceptedPacket nng m ver).topicLen = topic.length := by
  change (topicStr nng m).dest = some topic at hbody
  change TopicOk nng topic ∧ u32 (topicStr nng m).len = topic.length
  by_cases hstr : nng.IsStr m.body 0 (i32 m.body.length)
  · have hlt := get16_lt m.body 0
    have hlen : (slice m.body 2 (get16 m.body 0)).length = get16 m.body 0 :=
      length_slice m.body 2 _ (topic_end_le hstr)
    obtain ⟨hplus, hhash⟩ := topic_no_wildcard hlaw hstr hacc
    rw [topicStr_of_isStr hlaw hstr] at hbody ⊢
    dsimp only at hbody ⊢
    by_cases hz : get16 m.body 0 = 0
    · rw [if_pos hz] at hbody
      cases hbody
    · rw [if_neg hz] at hbody
      obtain rfl := Option.some.inj hbody
      refine ⟨⟨fun hnil => hz ?_, by omega, ?_, hplus, hhash⟩, ?_⟩
      · rw [← hlen, hnil]
        rfl
      · have hutf := hstr.2
        rwa [Nat.zero_add] at hutf
      · rw [u32_natCast (by omega), hlen]
  · have hnone : (topicStr nng m).dest = none := (hlaw.copyn_invalid _ _ _ hstr).1
    rw [hnone] at hbody
    cases hbody

theorem decoded_payloadLen (hacc : Accepts nng m ver) :
    (acceptedPacket nng m ver).payloadLen =
      ((acceptedPacket nng m ver).payloadData.getD []).length := by
  have hle := hacc.blockEnd_le
  have hrest : restLen nng m ver ≤ m.body.length - blockEnd nng m ver := Nat.mod_le _ _
  change restLen nng m ver = ((if restLen nng m ver > 0 then some _ else none).getD []).length
  split_ifs with hpos
  · rw [Option.getD_some, length_slice _ _ _ (by omega)]
  · exact Nat.eq_zero_of_not_pos hpos

theorem decoded_checked (hacc : Accepts nng m ver) {l : PropertyList}
    (hl : (acceptedPacket nng m ver).properties = some l) :
    nng.checkProperties (some l) m = 0 := by
  have hblock := hacc.block
  change decodedProps nng m ver = some l at hl
  unfold decodedProps at hl
  unfold BlockOk at hblock
  split_ifs at hl hblock with hv
  exact hblock.1 l hl

theorem Work.accepts_of_decoding {w : Work}
    (hcode : (w.decoding nng ver).code = ReasonCode.success)
    (htype : (w.decoding nng ver).packet.fixedHeader.packetType = PacketType.publish) :
    (w.msg.getD Msg.alloc).getType = PacketType.publish ∧
      Accepts nng (w.msg.getD Msg.alloc) ver ∧
      (w.decoding nng ver).packet = acceptedPacket nng (w.msg.getD Msg.alloc) ver := by
  have hpub : (w.msg.getD Msg.alloc).getType = PacketType.publish := by
    rw [Work.decoding, fixedHeader_decodePubMessage] at htype
    exact htype
  have hacc := (decodePubMessage_success_iff hpub _).mp hcode
  refine ⟨hpub, hacc, ?_⟩
  rw [Work.decoding, hacc.decodePubMessage_eq hpub]

end Decoded

/-- Whatever an alias stands for after a history of client events is a topic that was decoded. -/
theorem topicOk_of_atpairs {nng : Nng} (hlaw : nng.LawfulStr) {conf : Conf} {h : SubHandlers}
    {events : List ClientEvent} {p : ℕ} {a : UInt16} {topic : Bytes}
    (hbound : (runEvents nng conf h Store.empty events).atpairs p a = some topic) :
    TopicOk nng topic := by
  have hlast : LastBinding (ClientEvent.Binds nng conf) ClientEvent.Clears events p a topic :=
    (table_foldl_eq_some_iff tracks_atpairs rfl events topic).mp hbound
  obtain ⟨pre, e, post, -, hb, -⟩ := hlast
  cases e with
  | subscriptions db dbhash => exact hb.elim
  | arrival x =>
    obtain ⟨-, -, hb⟩ := hb
    obtain ⟨-, hacc, hpkt⟩ := Work.accepts_of_decoding hb.decoded hb.type
    obtain ⟨b, hbody⟩ := Option.isSome_iff_exists.mp hb.named.2
    have hb' := hbody
    rw [hpkt] at hb'
    have htopic := (decoded_topicOk hlaw hacc hb').1
    rw [← hb.topic, hbody, Option.getD_some, htopic.cstr_eq hlaw]
    exact htopic

theorem aliasResolved_cases (conf : Conf) (ver : ProtoVer) (st : Store) (pid : ℕ)
    (pkt : PubPacket) :
    aliasResolved conf ver st pid pkt = pkt ∨
      ∃ a tp, st.atpairs pid a = some tp ∧
        aliasResolved conf ver st pid pkt =
          { pkt with topicBody := some tp, topicLen := tp.length } := by
  unfold aliasResolved
  cases propertyGetValue pkt.properties topicAliasId with
  | none => exact Or.inl rfl
  | some v =>
    dsimp only
    split_ifs
    · cases htp : st.atpairs pid v.asU16 with
      | none => exact Or.inl rfl
      | some tp => exact Or.inr ⟨v.asU16, tp, htp, rfl⟩
    · exact Or.inl rfl

/-- What is seen of the message of a client: the packet as it was decoded, or the same under the
topic of an alias. -/
theorem Arrival.seenPacket_cases (nng : Nng) (conf : Conf) (st : Store) (x : Arrival) :
    let pkt := (x.publishWork.decoding nng x.version).packet
    seenPacket nng conf x.env.pub x.version st x.publishWork = pkt ∨
      ∃ a tp, st.atpairs x.msg.pipe a = some tp ∧
        seenPacket nng conf x.env.pub x.version st x.publishWork =
          { pkt with topicBody := some tp, topicLen := tp.length } := by
  unfold seenPacket seenDecoding
  rw [if_neg x.publishWork_proto]
  dsimp only
  split_ifs
  · exact aliasResolved_cases conf x.version st x.msg.pipe _
  · exact Or.inl rfl

/-- A message that gets past the alias step is handed on as it was decoded, under a topic that was
decoded for it or for an earlier message. -/
theorem Arrival.resolved {nng : Nng} (hlaw : nng.LawfulStr) {conf : Conf} {h : SubHandlers}
    {events : List ClientEvent} {x : Arrival} {t : PubState}
    (hres : resolve nng conf x.env.pub x.version false
      (pubStart (runEvents nng conf h Store.empty events) x.publishWork) = (none, t)) :
    (x.msg.stamp x.version).getType = PacketType.publish ∧
      Accepts nng (x.msg.stamp x.version) x.version ∧
      TopicOk nng t.topic ∧
      t.packet =
        { acceptedPacket nng (x.msg.stamp x.version) x.version with
          topicBody := some t.topic, topicLen := t.topic.length } := by
  obtain ⟨s₁, s₂, hdec, htype, -, -, hnull⟩ := resolve_go hres
  obtain ⟨hcode, hs₁⟩ := decodeStep_go (Or.inl x.publishWork_proto) hdec
  have hpkt₁ : s₁.packet = (x.publishWork.decoding nng x.version).packet := by rw [hs₁]; rfl
  rw [hpkt₁] at htype
  obtain ⟨hpub, hacc, hpkt⟩ := Work.accepts_of_decoding (w := x.publishWork) hcode htype
  have hseen := packet_resolve hres
  refine ⟨hpub, hacc, ?_⟩
  rw [PubState.topic]
  rcases x.seenPacket_cases nng conf (runEvents nng conf h Store.empty events) with
    hown | ⟨a, tp, htp, halias⟩
  · rw [hown, hpkt] at hseen
    obtain ⟨topic, hbody⟩ := Option.ne_none_iff_exists'.mp hnull
    have hbody' := hbody
    rw [hseen] at hbody'
    obtain ⟨htopic, hlen⟩ := decoded_topicOk hlaw hacc hbody'
    rw [hbody, Option.getD_some, htopic.cstr_eq hlaw]
    refine ⟨htopic, ?_⟩
    rw [hseen, ← hbody', ← hlen]
    rfl
  · have htopic := topicOk_of_atpairs hlaw htp
    rw [halias, hpkt] at hseen
    have hbody : t.packet.topicBody = some tp := by rw [hseen]
    rw [hbody, Option.getD_some, htopic.cstr_eq hlaw]
    exact ⟨htopic, hseen⟩

end NanoMQ
