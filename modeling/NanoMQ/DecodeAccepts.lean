import NanoMQ.DecodePub

/-!
# When a PUBLISH is decoded

The checks on the way to `SUCCESS`, put together in `Accepts`, and the packet that an accepted
PUBLISH leaves. The positions are those of the decoder, which keeps them in 32 bits and takes the
end of the topic from `copyn_utf8_str` whether or not there was a valid one.
-/

namespace NanoMQ

open ByteBuffer

section Accepts

variable (nng : Nng) (m : Msg) (proto : ProtoVer)

def topicStr : CopiedStr := nng.copynUtf8Str m.body 0 (i32 m.body.length)

def identEnd : ℕ :=
  if (m.fixedHeader nng).qos > 0 then ((topicStr nng m).pos + 2) % 4294967296
  else (topicStr nng m).pos

def blockEnd : ℕ :=
  if proto = ProtoVer.v5 then (nng.decodeProperties m (identEnd nng m)).pos else identEnd nng m

def decodedProps : Option PropertyList :=
  if proto = ProtoVer.v5 then (nng.decodeProperties m (identEnd nng m)).list else none

/-- The properties that start at `pos` pass their check and end within the body. -/
def BlockOk (pos : ℕ) : Prop :=
  if proto = ProtoVer.v5 then
    (∀ l, (nng.decodeProperties m pos).list = some l → nng.checkProperties (some l) m = 0) ∧
      (nng.decodeProperties m pos).pos ≤ m.body.length
  else pos ≤ m.body.length

/-- The checks that a PUBLISH passes on the way to `SUCCESS`. -/
structure Accepts : Prop where
  remain : (m.fixedHeader nng).remainLen ≤ m.body.length
  varint : (nng.mqttGetRemainingLength m.header).2 ≤ 4
  topic : topicHasWildcard (topicStr nng m).dest = false
  ident : (m.fixedHeader nng).qos > 0 → identEnd nng m ≤ m.body.length
  block : BlockOk nng m proto (identEnd nng m)

def restLen : ℕ := (m.body.length - blockEnd nng m proto) % 4294967296

def acceptedPacket : PubPacket where
  fixedHeader := m.fixedHeader nng
  packetId :=
    if (m.fixedHeader nng).qos > 0 then UInt16.ofNat (get16 m.body (topicStr nng m).pos) else 0
  topicBody := (topicStr nng m).dest
  topicLen := u32 (topicStr nng m).len
  properties := decodedProps nng m proto
  propLen := if proto = ProtoVer.v5 then (nng.decodeProperties m (identEnd nng m)).len else 0
  ackReason := 0
  payloadData :=
    if restLen nng m proto > 0 then
      some (slice m.body (blockEnd nng m proto) (restLen nng m proto))
    else none
  payloadLen := restLen nng m proto

def acceptedReads : List (ℕ × ℕ) :=
  [(0, (topicStr nng m).pos)] ++
    (if (m.fixedHeader nng).qos > 0 then [((topicStr nng m).pos, 2)] else []) ++
    (if proto = ProtoVer.v5 then
      [(identEnd nng m, (nng.decodeProperties m (identEnd nng m)).pos - identEnd nng m)]
    else []) ++
    (if restLen nng m proto > 0 then [(blockEnd nng m proto, restLen nng m proto)] else [])

variable {nng m proto}

theorem decodePayload_success_iff {pkt : PubPacket} {pos : ℕ} {reads : List (ℕ × ℕ)} :
    (decodePayload m pkt pos reads).code = ReasonCode.success ↔ pos ≤ m.body.length := by
  by_cases hpos : pos > m.body.length
  · rw [decodePayload, if_pos hpos]
    exact iff_of_false ReasonCode.protocolError_ne_success (not_le.mpr hpos)
  · rw [decodePayload, if_neg hpos]
    refine iff_of_true ?_ (not_lt.mp hpos)
    dsimp only
    split_ifs <;> rfl

theorem decodePubProperties_success_iff {pkt : PubPacket} {pos : ℕ} {reads : List (ℕ × ℕ)} :
    (decodePubProperties nng m proto pkt pos reads).code = ReasonCode.success ↔
      BlockOk nng m proto pos := by
  unfold decodePubProperties BlockOk
  by_cases hv : proto = ProtoVer.v5
  · simp only [if_pos hv]
    split_ifs with hbad
    · apply iff_of_false ReasonCode.protocolError_ne_success
      rintro ⟨hprops, -⟩
      obtain ⟨l, hl⟩ := Option.isSome_iff_exists.mp hbad.1
      exact hbad.2 (hl ▸ hprops l hl)
    · rw [decodePayload_success_iff, iff_and_self]
      intro _ l hl
      rw [hl] at hbad
      by_contra hne
      exact hbad ⟨rfl, hne⟩
  · simp only [if_neg hv]
    exact decodePayload_success_iff

theorem decodeIdentifier_success_iff {pkt : PubPacket} {pos : ℕ} {reads : List (ℕ × ℕ)} :
    (decodeIdentifier nng m proto pkt pos reads).code = ReasonCode.success ↔
      (pkt.fixedHeader.qos > 0 → (pos + 2) % 4294967296 ≤ m.body.length) ∧
        BlockOk nng m proto
          (if pkt.fixedHeader.qos > 0 then (pos + 2) % 4294967296 else pos) := by
  unfold decodeIdentifier
  by_cases hq : pkt.fixedHeader.qos > 0
  · simp only [if_pos hq]
    split_ifs with hid
    · apply iff_of_false ReasonCode.protocolError_ne_success
      exact fun h => absurd (h.1 hq) (not_le.mpr hid)
    · rw [decodePubProperties_success_iff, iff_and_self]
      exact fun _ _ => not_lt.mp hid
  · simp only [if_neg hq]
    rw [decodePubProperties_success_iff, iff_and_self]
    exact fun _ h => absurd h hq

/-- A PUBLISH is decoded with `SUCCESS` exactly past every check. -/
theorem decodePubMessage_success_iff (hpub : m.getType = PacketType.publish) (pkt : PubPacket) :
    (decodePubMessage nng m proto pkt).code = ReasonCode.success ↔ Accepts nng m proto := by
  have htype : (m.fixedHeader nng).packetType = PacketType.publish := hpub
  unfold decodePubMessage
  simp only [if_pos htype]
  split_ifs with hrem
  · apply iff_of_false ReasonCode.protocolError_ne_success
    exact fun h => hrem.elim (not_lt.mpr h.remain) (not_lt.mpr h.varint)
  obtain ⟨hlen, hvar⟩ := not_or.mp hrem
  unfold decodePublish
  simp only [ge_iff_le, Nat.zero_le, if_true]
  split_ifs with hwild
  · apply iff_of_false ReasonCode.protocolError_ne_success
    exact fun h => Bool.false_ne_true (h.topic.symm.trans hwild)
  rw [decodeIdentifier_success_iff]
  constructor
  · rintro ⟨hid, hblock⟩
    refine ⟨not_lt.mp hlen, not_lt.mp hvar, Bool.eq_false_iff.mpr hwild, ?_, hblock⟩
    intro hq
    rw [identEnd, if_pos hq]
    exact hid hq
  · intro h
    refine ⟨fun hq => ?_, h.block⟩
    have hid := h.ident hq
    rwa [identEnd, if_pos hq] at hid

theorem Accepts.blockEnd_le (h : Accepts nng m proto) : blockEnd nng m proto ≤ m.body.length := by
  have hb := h.block
  unfold BlockOk at hb
  unfold blockEnd
  split_ifs at hb ⊢
  · exact hb.2
  · exact hb

theorem decodePayload_of_le {pkt : PubPacket} {pos : ℕ} (reads : List (ℕ × ℕ))
    (hdata : pkt.payloadData = none) (hpos : pos ≤ m.body.length) :
    decodePayload m pkt pos reads =
      ⟨ReasonCode.success,
        { pkt with
          payloadData :=
            if (m.body.length - pos) % 4294967296 > 0 then
              some (slice m.body pos ((m.body.length - pos) % 4294967296))
            else none
          payloadLen := (m.body.length - pos) % 4294967296 },
        reads ++ if (m.body.length - pos) % 4294967296 > 0 then
          [(pos, (m.body.length - pos) % 4294967296)] else []⟩ := by
  rw [decodePayload, if_neg (not_lt.mpr hpos)]
  dsimp only
  split_ifs
  · rfl
  · rw [← hdata, List.append_nil]

theorem decodePubProperties_of_ok {pkt : PubPacket} {pos : ℕ} (reads : List (ℕ × ℕ))
    (hnone : pkt.properties = none) (hlen : pkt.propLen = 0) (hok : BlockOk nng m proto pos) :
    decodePubProperties nng m proto pkt pos reads =
      decodePayload m
        { pkt with
          properties := if proto = ProtoVer.v5 then (nng.decodeProperties m pos).list else none
          propLen := if proto = ProtoVer.v5 then (nng.decodeProperties m pos).len else 0 }
        (if proto = ProtoVer.v5 then (nng.decodeProperties m pos).pos else pos)
        (reads ++ if proto = ProtoVer.v5 then
          [(pos, (nng.decodeProperties m pos).pos - pos)] else []) := by
  unfold BlockOk at hok
  unfold decodePubProperties
  by_cases hv : proto = ProtoVer.v5
  · simp only [if_pos hv] at hok ⊢
    rw [if_neg]
    rintro ⟨hsome, hbad⟩
    obtain ⟨l, hl⟩ := Option.isSome_iff_exists.mp hsome
    exact hbad (hl ▸ hok.1 l hl)
  · simp only [if_neg hv, List.append_nil, ← hnone, ← hlen]

theorem decodeIdentifier_of_le {pkt : PubPacket} {pos : ℕ} (reads : List (ℕ × ℕ))
    (hid : pkt.packetId = 0)
    (hle : pkt.fixedHeader.qos > 0 → (pos + 2) % 4294967296 ≤ m.body.length) :
    decodeIdentifier nng m proto pkt pos reads =
      decodePubProperties nng m proto
        { pkt with
          packetId :=
            if pkt.fixedHeader.qos > 0 then UInt16.ofNat (get16 m.body pos) else 0 }
        (if pkt.fixedHeader.qos > 0 then (pos + 2) % 4294967296 else pos)
        (reads ++ if pkt.fixedHeader.qos > 0 then [(pos, 2)] else []) := by
  unfold decodeIdentifier
  by_cases hq : pkt.fixedHeader.qos > 0
  · simp only [if_pos hq]
    rw [if_neg (not_lt.mpr (hle hq))]
  · simp only [if_neg hq, List.append_nil, ← hid]

theorem Accepts.decodePubMessage_eq (h : Accepts nng m proto)
    (hpub : m.getType = PacketType.publish) :
    decodePubMessage nng m proto PubPacket.zalloc =
      ⟨ReasonCode.success, acceptedPacket nng m proto, acceptedReads nng m proto⟩ := by
  have htype : (m.fixedHeader nng).packetType = PacketType.publish := hpub
  have hrem : ¬ ((m.fixedHeader nng).remainLen > m.body.length ∨
      (nng.mqttGetRemainingLength m.header).2 > 4) :=
    fun hor => hor.elim (not_lt.mpr h.remain) (not_lt.mpr h.varint)
  have hid : (m.fixedHeader nng).qos > 0 →
      ((topicStr nng m).pos + 2) % 4294967296 ≤ m.body.length := by
    intro hq
    have hid := h.ident hq
    rwa [identEnd, if_pos hq] at hid
  have hstr : nng.copynUtf8Str m.body 0 (i32 m.body.length) = topicStr nng m := rfl
  unfold decodePubMessage
  simp only [if_pos htype, if_neg hrem]
  unfold decodePublish
  simp only [ge_iff_le, Nat.zero_le, if_true, hstr, h.topic, Bool.false_eq_true, if_false]
  refine (decodeIdentifier_of_le _ rfl hid).trans ?_
  refine (decodePubProperties_of_ok _ rfl rfl h.block).trans ?_
  exact decodePayload_of_le _ rfl h.blockEnd_le

end Accepts

end NanoMQ
