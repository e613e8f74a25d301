import NanoMQ.Nng
import Mathlib.Tactic.SplitIfs

/-!
# Decoding a PUBLISH

`decodePubMessage` fills the packet step by step, as `decode_pub_message` does, so that a decoding
that stops early still shows what the packet holds by then. The result also lists the spans of the
body that were read. The length of the topic is kept in an unsigned variable: the test `len >= 0`
cannot fail, and the length `-1` of an invalid string becomes `4294967295`.
-/

namespace NanoMQ

open ByteBuffer

structure Decoded where
  code : ReasonCode
  packet : PubPacket
  /-- Start and length of each span of the body that was read. -/
  reads : List (ℕ × ℕ)
  deriving DecidableEq, Repr

def topicHasWildcard (topic : Option Bytes) : Bool :=
  match topic with
  | none => false
  | some t => strchr t 0x2b || strchr t 0x23

def decodePayload (m : Msg) (pkt : PubPacket) (pos : ℕ) (reads : List (ℕ × ℕ)) : Decoded :=
  if pos > m.body.length then
    ⟨ReasonCode.protocolError,
      if pkt.properties.isSome then { pkt with properties := none, propLen := 0 } else pkt, reads⟩
  else
    let len := (m.body.length - pos) % 4294967296
    let pkt := { pkt with payloadLen := len }
    if len > 0 then
      ⟨ReasonCode.success, { pkt with payloadData := some (slice m.body pos len) },
        reads ++ [(pos, len)]⟩
    else ⟨ReasonCode.success, pkt, reads⟩

def decodePubProperties (nng : Nng) (m : Msg) (proto : ProtoVer) (pkt : PubPacket) (pos : ℕ)
    (reads : List (ℕ × ℕ)) : Decoded :=
  if proto = ProtoVer.v5 then
    let d := nng.decodeProperties m pos
    let reads := reads ++ [(pos, d.pos - pos)]
    let pkt := { pkt with properties := d.list, propLen := d.len }
    if d.list.isSome ∧ nng.checkProperties d.list m ≠ 0 then
      ⟨ReasonCode.protocolError, { pkt with properties := none, propLen := 0 }, reads⟩
    else decodePayload m pkt d.pos reads
  else decodePayload m pkt pos reads

def decodeIdentifier (nng : Nng) (m : Msg) (proto : ProtoVer) (pkt : PubPacket) (pos : ℕ)
    (reads : List (ℕ × ℕ)) : Decoded :=
  if pkt.fixedHeader.qos > 0 then
    if (pos + 2) % 4294967296 > m.body.length then ⟨ReasonCode.protocolError, pkt, reads⟩
    else
      decodePubProperties nng m proto { pkt with packetId := UInt16.ofNat (get16 m.body pos) }
        ((pos + 2) % 4294967296) (reads ++ [(pos, 2)])
  else decodePubProperties nng m proto pkt pos reads

def decodePublish (nng : Nng) (m : Msg) (proto : ProtoVer) (pkt : PubPacket) : Decoded :=
  let str := nng.copynUtf8Str m.body 0 (i32 m.body.length)
  let len := u32 str.len
  let pkt := { pkt with topicBody := str.dest }
  if len ≥ 0 then
    let pkt := { pkt with topicLen := len }
    if topicHasWildcard pkt.topicBody then ⟨ReasonCode.protocolError, pkt, [(0, str.pos)]⟩
    else decodeIdentifier nng m proto pkt str.pos [(0, str.pos)]
  else ⟨ReasonCode.protocolError, pkt, [(0, str.pos)]⟩

/-- The branch of the acknowledgements, which the handlers do not reach. -/
def decodePubAck (nng : Nng) (m : Msg) (proto : ProtoVer) (pkt : PubPacket) : Decoded :=
  let pkt := { pkt with packetId := UInt16.ofNat (get16 m.body 0) }
  if proto = ProtoVer.v5 then
    let d := nng.decodeProperties m 3
    let reads := [(0, 2), (2, 1), (3, d.pos - 3)]
    let pkt := { pkt with ackReason := byteAt m.body 2, properties := d.list, propLen := d.len }
    if nng.checkProperties d.list m ≠ ReasonCode.success then
      ⟨ReasonCode.protocolError, { pkt with properties := none, propLen := 0 }, reads⟩
    else ⟨ReasonCode.success, pkt, reads⟩
  else ⟨ReasonCode.success, pkt, [(0, 2)]⟩

def Msg.fixedHeader (nng : Nng) (m : Msg) : FixedHeader :=
  { FixedHeader.ofByte (m.header.headD 0) with
    remainLen := (nng.mqttGetRemainingLength m.header).1 }

def decodePubMessage (nng : Nng) (m : Msg) (proto : ProtoVer) (pkt : PubPacket) : Decoded :=
  let pkt := { pkt with fixedHeader := m.fixedHeader nng }
  if pkt.fixedHeader.remainLen > m.body.length ∨
      (nng.mqttGetRemainingLength m.header).2 > 4 then
    ⟨ReasonCode.protocolError, pkt, []⟩
  else if pkt.fixedHeader.packetType = PacketType.publish then decodePublish nng m proto pkt
  else if pkt.fixedHeader.packetType ∈
      [PacketType.puback, PacketType.pubrec, PacketType.pubrel, PacketType.pubcomp] then
    decodePubAck nng m proto pkt
  else ⟨ReasonCode.success, pkt, []⟩

/-- What the steps behind the topic leave of a packet. A decoding that fails there leaves no
properties. -/
structure KeepsTopic (pkt : PubPacket) (d : Decoded) : Prop where
  fixedHeader : d.packet.fixedHeader = pkt.fixedHeader
  topicBody : d.packet.topicBody = pkt.topicBody
  topicLen : d.packet.topicLen = pkt.topicLen
  properties : d.code ≠ ReasonCode.success → d.packet.properties = none

theorem KeepsTopic.of_eq {pkt pkt' : PubPacket} {d : Decoded} (h : KeepsTopic pkt' d)
    (hhead : pkt'.fixedHeader = pkt.fixedHeader) (hbody : pkt'.topicBody = pkt.topicBody)
    (hlen : pkt'.topicLen = pkt.topicLen) : KeepsTopic pkt d :=
  ⟨h.fixedHeader.trans hhead, h.topicBody.trans hbody, h.topicLen.trans hlen, h.properties⟩

section Partial

variable {nng : Nng} {m : Msg} {proto : ProtoVer} {pkt : PubPacket} {pos : ℕ}
  {reads : List (ℕ × ℕ)}

theorem keepsTopic_decodePayload : KeepsTopic pkt (decodePayload m pkt pos reads) := by
  unfold decodePayload
  dsimp only
  split_ifs with hpos hsome
  · exact ⟨rfl, rfl, rfl, fun _ => rfl⟩
  · exact ⟨rfl, rfl, rfl, fun _ => Option.not_isSome_iff_eq_none.mp hsome⟩
  · exact ⟨rfl, rfl, rfl, fun h => absurd rfl h⟩
  · exact ⟨rfl, rfl, rfl, fun h => absurd rfl h⟩

theorem keepsTopic_decodePubProperties :
    KeepsTopic pkt (decodePubProperties nng m proto pkt pos reads) := by
  unfold decodePubProperties
  dsimp only
  split_ifs
  · exact ⟨rfl, rfl, rfl, fun _ => rfl⟩
  · exact keepsTopic_decodePayload.of_eq rfl rfl rfl
  · exact keepsTopic_decodePayload

theorem keepsTopic_decodeIdentifier (hnone : pkt.properties = none) :
    KeepsTopic pkt (decodeIdentifier nng m proto pkt pos reads) := by
  unfold decodeIdentifier
  split_ifs
  · exact ⟨rfl, rfl, rfl, fun _ => hnone⟩
  · exact keepsTopic_decodePubProperties.of_eq rfl rfl rfl
  · exact keepsTopic_decodePubProperties

def PubPacket.withTopic (pkt : PubPacket) (str : CopiedStr) : PubPacket :=
  { pkt with topicBody := str.dest, topicLen := u32 str.len }

theorem keepsTopic_decodePublish (hnone : pkt.properties = none) :
    KeepsTopic (pkt.withTopic (nng.copynUtf8Str m.body 0 (i32 m.body.length)))
      (decodePublish nng m proto pkt) := by
  unfold decodePublish
  simp only [ge_iff_le, Nat.zero_le, if_true]
  split_ifs
  · exact ⟨rfl, rfl, rfl, fun _ => hnone⟩
  · exact keepsTopic_decodeIdentifier hnone

theorem fixedHeader_decodePubMessage :
    (decodePubMessage nng m proto PubPacket.zalloc).packet.fixedHeader = m.fixedHeader nng := by
  unfold decodePubMessage decodePubAck
  dsimp only
  split_ifs
  · rfl
  · exact (keepsTopic_decodePublish rfl).fixedHeader
  all_goals rfl

def HeaderOk (nng : Nng) (m : Msg) : Prop :=
  (m.fixedHeader nng).remainLen ≤ m.body.length ∧ (nng.mqttGetRemainingLength m.header).2 ≤ 4

instance : Decidable (HeaderOk nng m) := inferInstanceAs (Decidable (_ ∧ _))

/-- The packet of a PUBLISH, decoded as far as it goes, with the topic from the front of the
body. -/
theorem keepsTopic_decodePubMessage (hpub : m.getType = PacketType.publish)
    (hhead : HeaderOk nng m) :
    KeepsTopic
      ({ PubPacket.zalloc with fixedHeader := m.fixedHeader nng }.withTopic
        (nng.copynUtf8Str m.body 0 (i32 m.body.length)))
      (decodePubMessage nng m proto PubPacket.zalloc) := by
  have htype : (m.fixedHeader nng).packetType = PacketType.publish := hpub
  have hrem : ¬ ((m.fixedHeader nng).remainLen > m.body.length ∨
      (nng.mqttGetRemainingLength m.header).2 > 4) :=
    fun hor => hor.elim (not_lt.mpr hhead.1) (not_lt.mpr hhead.2)
  unfold decodePubMessage
  simp only [if_pos htype, if_neg hrem]
  exact keepsTopic_decodePublish rfl

theorem decodePubMessage_of_bad_header (hhead : ¬ HeaderOk nng m) :
    decodePubMessage nng m proto PubPacket.zalloc =
      ⟨ReasonCode.protocolError,
        { PubPacket.zalloc with fixedHeader := m.fixedHeader nng }, []⟩ := by
  unfold decodePubMessage
  apply if_pos
  rcases not_and_or.mp hhead with h | h
  · exact Or.inl (not_le.mp h)
  · exact Or.inr (not_le.mp h)

end Partial

end NanoMQ
