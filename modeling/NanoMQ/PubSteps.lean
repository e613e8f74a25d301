import NanoMQ.PubOutcome

/-!
# The steps of `handle_pub`

What each step before the access control returns and what it changes, and from that the steps of a
call that gets past them (`resolve_go`) and the codes of one that does not (`resolve_return`).
-/

namespace NanoMQ

open ByteBuffer EarlyReturn

section Steps

variable {nng : Nng} {conf : Conf} {env : PubEnv} {proto : ProtoVer} {isEvent : Bool}
  {s t : PubState} {o : Option ReasonCode} {c : ReasonCode}

theorem decodeStep_return (h : decodeStep nng proto isEvent s = (some c, t)) :
    c ≠ ReasonCode.success := by
  unfold decodeStep at h
  dsimp only at h
  split_ifs at h with hd hcode
  · obtain ⟨rfl, -⟩ : _ = c ∧ _ = t := by simpa using h
    exact hcode
  · cases h
  · cases h

theorem decodeStep_go (hd : s.work.proto ≠ .mqttBridge ∨ isEvent = true)
    (h : decodeStep nng proto isEvent s = (none, t)) :
    let d := decodePubMessage nng (s.work.msg.getD Msg.alloc) proto PubPacket.zalloc
    d.code = ReasonCode.success ∧ t = s.setPacket d.packet := by
  unfold decodeStep at h
  rw [if_pos hd] at h
  dsimp only at h ⊢
  split_ifs at h with hcode
  · cases h
  · exact ⟨not_not.mp hcode, (congrArg Prod.snd h).symm⟩

/-- A message that cannot be decoded is returned at once. -/
theorem handlePub_of_failed (conf : Conf) (env : PubEnv) (st : Store) {w : Work}
    (hd : w.proto ≠ .mqttBridge ∨ isEvent = true)
    (hfail : (decodePubMessage nng (w.msg.getD Msg.alloc) proto PubPacket.zalloc).code ≠
      ReasonCode.success) :
    let d := decodePubMessage nng (w.msg.getD Msg.alloc) proto PubPacket.zalloc
    handlePub nng conf env proto isEvent st w = (d.code, (pubStart st w).setPacket d.packet) := by
  apply handlePub_of_resolve_return
  apply andThen_of_return
  unfold decodeStep
  exact (if_pos hd).trans (if_pos hfail)

theorem typeStep_cases (h : typeStep s = (o, t)) :
    t = s ∧ (o = some ReasonCode.malformedPacket ∧
        s.packet.fixedHeader.packetType ≠ PacketType.publish ∨
      o = none ∧ s.packet.fixedHeader.packetType = PacketType.publish) := by
  unfold typeStep at h
  split_ifs at h with htype
  · cases h
    exact ⟨rfl, Or.inl ⟨rfl, htype⟩⟩
  · cases h
    exact ⟨rfl, Or.inr ⟨rfl, not_not.mp htype⟩⟩

theorem authHttpStep_cases (h : authHttpStep conf env s = (o, t)) :
    (t = s ∧ o = none ∧ (conf.authHttpEnable = true →
      topicQueueInit env s.packet.topicBody = none)) ∨
    ∃ queue, conf.authHttpEnable = true ∧ topicQueueInit env s.packet.topicBody = some queue ∧
      t = s.act (.authHttp queue env.authGranted) ∧
      o = if env.authGranted then none else some ReasonCode.notAuthorized := by
  unfold authHttpStep at h
  cases hq : topicQueueInit env s.packet.topicBody with
  | none =>
    rw [hq] at h
    split_ifs at h <;> cases h <;> exact Or.inl ⟨rfl, rfl, fun _ => rfl⟩
  | some queue =>
    rw [hq] at h
    by_cases hen : conf.authHttpEnable = true
    · right
      rw [if_pos hen] at h
      dsimp only at h
      refine ⟨queue, hen, rfl, ?_⟩
      cases hg : env.authGranted <;> rw [hg] at h <;> cases h <;> exact ⟨rfl, rfl⟩
    · left
      rw [if_neg hen] at h
      cases h
      exact ⟨rfl, rfl, fun h => absurd h hen⟩

/-- The HTTP authorization is asked about a message with this topic and refuses. -/
def HttpRefuses (conf : Conf) (env : PubEnv) (topic : Option Bytes) : Prop :=
  conf.authHttpEnable = true ∧ topicQueueInit env topic ≠ none ∧ env.authGranted = false

instance (topic : Option Bytes) : Decidable (HttpRefuses conf env topic) :=
  inferInstanceAs (Decidable (_ ∧ _ ∧ _))

/-- The authorization returns exactly when it refuses; all it does is ask. -/
theorem authHttpStep_spec (h : authHttpStep conf env s = (o, t)) :
    t.work = s.work ∧ t.store = s.store ∧
      (o = none ↔ ¬ HttpRefuses conf env s.packet.topicBody) := by
  rcases authHttpStep_cases h with ⟨rfl, rfl, hq⟩ | ⟨queue, hen, hq, rfl, rfl⟩
  · refine ⟨rfl, rfl, iff_of_true rfl ?_⟩
    rintro ⟨hen, hsome, -⟩
    exact hsome (hq hen)
  · refine ⟨rfl, rfl, ?_⟩
    cases hg : env.authGranted <;> simp [HttpRefuses, hen, hq, hg]

theorem topicStep_cases (h : topicStep s = (o, t)) :
    t = s ∧ (o = some ReasonCode.topicFilterInvalid ∧ s.packet.topicBody = none ∨
      o = none ∧ s.packet.topicBody ≠ none) := by
  unfold topicStep at h
  split_ifs at h with hnull <;> cases h
  · exact ⟨rfl, Or.inl ⟨rfl, hnull⟩⟩
  · exact ⟨rfl, Or.inr ⟨rfl, hnull⟩⟩

def PubPacket.Named (pkt : PubPacket) : Prop := pkt.topicLen > 0 ∧ pkt.topicBody.isSome = true

instance (pkt : PubPacket) : Decidable pkt.Named := inferInstanceAs (Decidable (_ ∧ _))

def ValidAlias (conf : Conf) (a : UInt16) : Prop := a ≠ 0 ∧ a ≤ conf.maxTopicAlias

instance (a : UInt16) : Decidable (ValidAlias conf a) := inferInstanceAs (Decidable (_ ∧ _))

theorem ValidAlias.not_refused {a : UInt16} (ha : ValidAlias conf a) :
    ¬ (a = 0 ∨ a > conf.maxTopicAlias) :=
  not_or.mpr ⟨ha.1, UInt16.not_lt.mpr ha.2⟩

theorem aliasValueStep_invalid {a : UInt16} (ha : ¬ ValidAlias conf a) :
    aliasValueStep conf a s = (some ReasonCode.topicAliasInvalid, s) := by
  unfold aliasValueStep
  apply if_pos
  rcases not_and_or.mp ha with h | h
  · exact Or.inl (not_not.mp h)
  · exact Or.inr (UInt16.not_le.mp h)

theorem aliasValueStep_named {a : UInt16} (ha : ValidAlias conf a) (hn : s.packet.Named) :
    aliasValueStep conf a s =
      (none, { s.act (.insertAtpair s.work.pid a s.topic) with
        store := s.store.insertAtpair s.work.pid a s.topic }) := by
  unfold aliasValueStep
  rw [if_neg ha.not_refused]
  exact if_pos hn

theorem aliasValueStep_unnamed {a : UInt16} (ha : ValidAlias conf a) (hn : ¬ s.packet.Named) :
    aliasValueStep conf a s =
      match s.store.atpairs s.work.pid a with
      | some tp =>
          (none, s.setPacket { s.packet with topicBody := some tp, topicLen := tp.length })
      | none => (some ReasonCode.topicAliasInvalid, s) := by
  unfold aliasValueStep
  rw [if_neg ha.not_refused]
  exact if_neg hn

theorem aliasValueStep_return {a : UInt16} (h : aliasValueStep conf a s = (some c, t)) :
    c = ReasonCode.topicAliasInvalid := by
  by_cases ha : ValidAlias conf a
  · by_cases hn : s.packet.Named
    · rw [aliasValueStep_named ha hn] at h
      cases h
    · rw [aliasValueStep_unnamed ha hn] at h
      cases htp : s.store.atpairs s.work.pid a with
      | none =>
        rw [htp] at h
        exact (Option.some.inj (congrArg Prod.fst h)).symm
      | some tp =>
        rw [htp] at h
        cases h
  · rw [aliasValueStep_invalid ha] at h
    exact (Option.some.inj (congrArg Prod.fst h)).symm

theorem aliasStep_cases (h : aliasStep conf proto s = (o, t)) :
    (t = s ∧ o.all (· = ReasonCode.protocolError)) ∨
      ∃ v, proto = ProtoVer.v5 ∧ propertyGetValue s.packet.properties topicAliasId = some v ∧
        aliasValueStep conf v.asU16 s = (o, t) := by
  unfold aliasStep at h
  by_cases hv : proto = ProtoVer.v5
  · rw [if_pos hv] at h
    cases hp : propertyGetValue s.packet.properties topicAliasId with
    | none =>
      rw [hp] at h
      dsimp only at h
      split_ifs at h <;> cases h <;> exact Or.inl ⟨rfl, rfl⟩
    | some v =>
      rw [hp] at h
      exact Or.inr ⟨v, hv, rfl, h⟩
  · rw [if_neg hv] at h
    cases h
    exact Or.inl ⟨rfl, rfl⟩

theorem aliasStep_return (h : aliasStep conf proto s = (some c, t)) :
    c ≠ ReasonCode.success := by
  obtain ⟨-, hc⟩ | ⟨v, -, -, hvalue⟩ := aliasStep_cases h
  · obtain rfl : c = ReasonCode.protocolError := by simpa using hc
    exact ReasonCode.protocolError_ne_success
  · rw [aliasValueStep_return hvalue]
    decide

/-- A packet with a topic of its own keeps it through the alias step. -/
theorem aliasStep_named (hn : s.packet.Named) (h : aliasStep conf proto s = (none, t)) :
    t.packet = s.packet := by
  obtain ⟨rfl, -⟩ | ⟨v, -, -, hvalue⟩ := aliasStep_cases h
  · rfl
  · by_cases ha : ValidAlias conf v.asU16
    · rw [aliasValueStep_named ha hn] at hvalue
      cases hvalue
      rfl
    · rw [aliasValueStep_invalid ha] at hvalue
      cases hvalue

theorem resolve_go (h : resolve nng conf env proto isEvent s = (none, t)) :
    ∃ s₁ s₂, decodeStep nng proto isEvent s = (none, s₁) ∧
      s₁.packet.fixedHeader.packetType = PacketType.publish ∧
      authHttpStep conf env s₁ = (none, s₂) ∧ aliasStep conf proto s₂ = (none, t) ∧
      t.packet.topicBody ≠ none := by
  rcases andThen_cases h with ⟨r, hr, -⟩ | ⟨s₁, hdec, h₁⟩
  · cases hr
  rcases andThen_cases h₁ with ⟨r, hr, -⟩ | ⟨s₁', htype, h₂⟩
  · cases hr
  rcases andThen_cases h₂ with ⟨r, hr, -⟩ | ⟨s₂, hauth, h₃⟩
  · cases hr
  rcases andThen_cases h₃ with ⟨r, hr, -⟩ | ⟨s₃, halias, h₄⟩
  · cases hr
  obtain ⟨rfl, ⟨hc, -⟩ | ⟨-, hpub⟩⟩ := typeStep_cases htype
  · cases hc
  obtain ⟨rfl, ⟨hc, -⟩ | ⟨-, hnull⟩⟩ := topicStep_cases h₄
  · cases hc
  exact ⟨s₁', s₂, hdec, hpub, hauth, halias, hnull⟩

/-- An early return before the access control carries an error. -/
theorem resolve_return (h : resolve nng conf env proto isEvent s = (some c, t)) :
    c ≠ ReasonCode.success := by
  rcases andThen_cases h with ⟨r, hr, hdec⟩ | ⟨s₁, -, h₁⟩
  · cases hr
    exact decodeStep_return hdec
  rcases andThen_cases h₁ with ⟨r, hr, htype⟩ | ⟨s₂, -, h₂⟩
  · cases hr
    obtain ⟨-, ⟨hc, -⟩ | ⟨hc, -⟩⟩ := typeStep_cases htype
    · rw [Option.some.inj hc]
      decide
    · cases hc
  rcases andThen_cases h₂ with ⟨r, hr, hauth⟩ | ⟨s₃, -, h₃⟩
  · cases hr
    rcases authHttpStep_cases hauth with ⟨-, hc, -⟩ | ⟨queue, -, -, -, hc⟩
    · cases hc
    · split_ifs at hc
      rw [Option.some.inj hc]
      decide
  rcases andThen_cases h₃ with ⟨r, hr, halias⟩ | ⟨s₄, -, h₄⟩
  · cases hr
    exact aliasStep_return halias
  obtain ⟨-, ⟨hc, -⟩ | ⟨hc, -⟩⟩ := topicStep_cases h₄
  · rw [Option.some.inj hc]
    decide
  · cases hc

end Steps

end NanoMQ
