import NanoMQ.AliasTable

/-!
# The packet that is left in the work

Whether `handle_pub` fails or not, the packet of its work stays behind for the states that follow.
It is the packet that was decoded, as far as that went, with the topic of its alias filled in where
the call came to that. `seenPacket` says so in terms of the message, the configuration and the alias
table before the call.
-/

namespace NanoMQ

open ByteBuffer EarlyReturn

/-- An alias that comes without a topic is replaced by the topic it stands for, if there is one. -/
def aliasResolved (conf : Conf) (ver : ProtoVer) (st : Store) (pid : ℕ) (pkt : PubPacket) :
    PubPacket :=
  match propertyGetValue pkt.properties topicAliasId with
  | none => pkt
  | some v =>
      if ver = ProtoVer.v5 ∧ ValidAlias conf v.asU16 ∧ ¬ pkt.Named then
        match st.atpairs pid v.asU16 with
        | some tp => { pkt with topicBody := some tp, topicLen := tp.length }
        | none => pkt
      else pkt

def seenDecoding (nng : Nng) (ver : ProtoVer) (w : Work) : Decoded :=
  if w.proto = .mqttBridge then ⟨ReasonCode.success, w.packet, []⟩ else w.decoding nng ver

def seenPacket (nng : Nng) (conf : Conf) (env : PubEnv) (ver : ProtoVer) (st : Store) (w : Work) :
    PubPacket :=
  let d := seenDecoding nng ver w
  if d.code = ReasonCode.success ∧ d.packet.fixedHeader.packetType = PacketType.publish ∧
      ¬ HttpRefuses conf env d.packet.topicBody then
    aliasResolved conf ver st w.pid d.packet
  else d.packet

section Packet

variable {nng : Nng} {conf : Conf} {env : PubEnv} {ver : ProtoVer} {st : Store} {w : Work}
  {s t : PubState} {o : Option ReasonCode}

theorem decodeStep_seen (h : decodeStep nng ver false (pubStart st w) = (o, s)) :
    s.packet = (seenDecoding nng ver w).packet ∧ s.work.pid = w.pid ∧ s.store = st ∧
      (o = none ↔ (seenDecoding nng ver w).code = ReasonCode.success) := by
  unfold decodeStep at h
  unfold seenDecoding
  by_cases hb : w.proto = .mqttBridge
  · have hskip : ¬ ((pubStart st w).work.proto ≠ .mqttBridge ∨ false = true) := by
      rintro (hne | hev)
      · exact hne hb
      · cases hev
    rw [if_neg hskip] at h
    rw [if_pos hb]
    cases h
    exact ⟨rfl, rfl, rfl, iff_of_true rfl rfl⟩
  · have hown : (pubStart st w).work.proto ≠ .mqttBridge ∨ false = true := Or.inl hb
    rw [if_pos hown] at h
    rw [if_neg hb]
    dsimp only at h
    split_ifs at h with hcode
    · cases h
      exact ⟨rfl, rfl, rfl, iff_of_false (by rintro ⟨⟩) hcode⟩
    · cases h
      exact ⟨rfl, rfl, rfl, iff_of_true rfl (not_not.mp hcode)⟩

theorem aliasStep_packet (h : aliasStep conf ver s = (o, t)) :
    t.packet = aliasResolved conf ver s.store s.work.pid s.packet := by
  unfold aliasStep at h
  unfold aliasResolved
  cases hp : propertyGetValue s.packet.properties topicAliasId with
  | none =>
    rw [hp] at h
    dsimp only at h ⊢
    split_ifs at h <;> cases h <;> rfl
  | some v =>
    rw [hp] at h
    dsimp only at h ⊢
    by_cases hv : ver = ProtoVer.v5
    · rw [if_pos hv] at h
      by_cases ha : ValidAlias conf v.asU16
      · by_cases hn : s.packet.Named
        · rw [aliasValueStep_named ha hn] at h
          rw [if_neg (fun hc => hc.2.2 hn)]
          cases h
          rfl
        · rw [aliasValueStep_unnamed ha hn] at h
          rw [if_pos ⟨hv, ha, hn⟩]
          cases htp : s.store.atpairs s.work.pid v.asU16 <;> rw [htp] at h <;> cases h <;> rfl
      · rw [aliasValueStep_invalid ha] at h
        rw [if_neg (fun hc => ha hc.2.1)]
        cases h
        rfl
    · rw [if_neg hv] at h
      rw [if_neg (fun hc => hv hc.1)]
      cases h
      rfl

theorem packet_resolve (h : resolve nng conf env ver false (pubStart st w) = (o, t)) :
    t.packet = seenPacket nng conf env ver st w := by
  unfold seenPacket
  dsimp only
  rcases andThen_cases h with ⟨r, -, hdec⟩ | ⟨s₁, hdec, h₁⟩
  · obtain ⟨hpkt, -, -, hcode⟩ := decodeStep_seen hdec
    rw [hpkt, if_neg (fun hc => Option.some_ne_none r (hcode.mpr hc.1))]
  obtain ⟨hpkt₁, hpid₁, hst₁, hcode⟩ := decodeStep_seen hdec
  rw [← hpkt₁, ← hpid₁, ← hst₁]
  rcases andThen_cases h₁ with ⟨r, hr, htype⟩ | ⟨s₁', htype, h₂⟩
  · obtain ⟨rfl, ⟨-, hne⟩ | ⟨hgo, -⟩⟩ := typeStep_cases htype
    · rw [if_neg (fun hc => hne hc.2.1)]
    · cases hgo
  obtain ⟨rfl, ⟨hret, -⟩ | ⟨-, hpub⟩⟩ := typeStep_cases htype
  · cases hret
  rcases andThen_cases h₂ with ⟨r, -, hauth⟩ | ⟨s₂, hauth, h₃⟩
  · obtain ⟨hw, -, hhttp⟩ := authHttpStep_spec hauth
    rw [PubState.packet, hw, if_neg (fun hc => Option.some_ne_none r (hhttp.mpr hc.2.2))]
    rfl
  obtain ⟨hw, hst₂, hhttp⟩ := authHttpStep_spec hauth
  have hpkt₂ : s₂.packet = s₁'.packet := by rw [PubState.packet, hw]; rfl
  rw [if_pos ⟨hcode.mp rfl, hpub, hhttp.mp rfl⟩, ← hpkt₂, ← hst₂, ← hw]
  rcases andThen_cases h₃ with ⟨r, -, halias⟩ | ⟨s₃, halias, h₄⟩
  · exact aliasStep_packet halias
  · rw [(topicStep_cases h₄).1]
    exact aliasStep_packet halias

end Packet

end NanoMQ
