import NanoMQ.PubRoundTrip
import NanoMQ.ResolvedTopic

/-!
# Encoding a message again

The packet a message was decoded to, under the topic it is processed under, is written back into the
message before it is sent. Whoever decodes it gets the parts of the packet.
-/

namespace NanoMQ

open ByteBuffer

variable {nng : Nng}

theorem SameParts.samePublish {pkt pkt' pkt'' : PubPacket} (h : SameParts pkt pkt')
    (h' : SamePublish pkt' pkt'') : SamePublish pkt pkt'' where
  dup := h'.dup.trans h.dup
  qos := h'.qos.trans h.qos
  retain := h'.retain.trans h.retain
  topicBody := h'.topicBody.trans h.topicBody
  topicLen := h'.topicLen.trans h.topicLen
  packetId hq := (h'.packetId (by rwa [h.qos])).trans h.packetId
  properties := h'.properties.trans h.properties
  payloadLen := h'.payloadLen.trans h.payloadLen
  payloadData := by rw [h'.payloadData, h.payloadData]

theorem decodePubMessage_congr {ver ver' : ProtoVer} (h : ver = ProtoVer.v5 ↔ ver' = ProtoVer.v5)
    (m : Msg) (pkt : PubPacket) :
    decodePubMessage nng m ver pkt = decodePubMessage nng m ver' pkt := by
  simp only [decodePubMessage, decodePublish, decodeIdentifier, decodePubProperties, decodePubAck,
    h]

theorem protoVer_stamp (m : Msg) (ver : ProtoVer) :
    (m.stamp ver).cmdType.protoVer = ProtoVer.v5 ↔ ver = ProtoVer.v5 := by
  change (if ver = ProtoVer.v5 then CmdType.publishV5 else .publish).protoVer = _ ↔ _
  split_ifs with hv
  · exact iff_of_true rfl hv
  · exact iff_of_false (by decide) hv

/-- The parts of the packet a message was decoded to, under a topic that was decoded too. -/
theorem isPublish_of_sameParts {m : Msg} {ver : ProtoVer} (hacc : Accepts nng m ver)
    {topic : Bytes} (htopic : TopicOk nng topic) {pkt : PubPacket}
    (hsame : SameParts { acceptedPacket nng m ver with
      topicBody := some topic, topicLen := topic.length } pkt) :
    IsPublish nng pkt topic ((acceptedPacket nng m ver).payloadData.getD []) where
  topicBody := hsame.topicBody
  topicLen := hsame.topicLen
  topic_ne := htopic.ne_nil
  topic_lt := htopic.lt
  utf8 := htopic.utf8
  no_plus := htopic.no_plus
  no_hash := htopic.no_hash
  payloadData := by rw [hsame.payloadData]
  payloadLen := hsame.payloadLen.trans (decoded_payloadLen hacc)

/-- Without a QoS there is no packet identifier, and the field stays cleared. -/
theorem packetId_of_qos_zero {m : Msg} {ver : ProtoVer} (hpub : m.getType = PacketType.publish)
    (hcode : (decodePubMessage nng m ver PubPacket.zalloc).code = ReasonCode.success)
    (hq : ¬ (decodePubMessage nng m ver PubPacket.zalloc).packet.fixedHeader.qos > 0) :
    (decodePubMessage nng m ver PubPacket.zalloc).packet.packetId = 0 := by
  rw [fixedHeader_decodePubMessage] at hq
  rw [((decodePubMessage_success_iff hpub _).mp hcode).decodePubMessage_eq hpub]
  exact if_neg hq

/-- A packet that was decoded from a message is encoded into a message of the same kind and decodes
to its parts. -/
theorem decode_reencoded (hlaw : nng.LawfulStr) (hprops : nng.PropsInverse)
    (hvar : nng.VarintInverse) (hkind : nng.ChecksByKind) {m : Msg} {ver : ProtoVer}
    (hpub : (m.stamp ver).getType = PacketType.publish) (hacc : Accepts nng (m.stamp ver) ver)
    {topic : Bytes} (htopic : TopicOk nng topic) {pkt : PubPacket}
    (hsame : SameParts { acceptedPacket nng (m.stamp ver) ver with
      topicBody := some topic, topicLen := topic.length } pkt)
    (dest : Msg) (hcmd : dest.cmdType = (m.stamp ver).cmdType)
    (hok : (encodePubMessage nng dest pkt PacketType.publish).ok = true)
    (hlen : (encodePubMessage nng dest pkt PacketType.publish).msg.body.length ≤ 268435455) :
    let m' := (encodePubMessage nng dest pkt PacketType.publish).msg
    m'.getType = PacketType.publish ∧
      (decodePubMessage nng m' ver PubPacket.zalloc).code = ReasonCode.success ∧
      SamePublish { acceptedPacket nng (m.stamp ver) ver with
        topicBody := some topic, topicLen := topic.length }
        (decodePubMessage nng m' ver PubPacket.zalloc).packet := by
  have hver : dest.cmdType.protoVer = ProtoVer.v5 ↔ ver = ProtoVer.v5 := by
    rw [hcmd]
    exact protoVer_stamp m ver
  have h := isPublish_of_sameParts hacc htopic hsame
  obtain ⟨block, hblock⟩ := ok_encodePubMessage_iff.mp hok
  have htype := congrArg FixedHeader.packetType (fixedHeader_encoded h hblock)
  have hcheck : ∀ l, pkt.properties = some l → nng.checkProperties (some l)
      (encodePubMessage nng dest pkt PacketType.publish).msg = 0 := by
    intro l hl
    rw [← decoded_checked hacc (hsame.properties.symm.trans hl)]
    apply hkind
    · exact htype.trans hpub.symm
    · rw [encodePubMessage_eq h _ hblock]
      exact hcmd
  have hnone : dest.cmdType.protoVer ≠ ProtoVer.v5 → pkt.properties = none := by
    intro hv
    rw [hsame.properties]
    exact if_neg (fun h5 => hv (hver.mpr h5))
  obtain ⟨hcode, hparts⟩ := holdsParts_encoded h hblock hlaw hprops hvar hcheck hlen
  have hsame' := samePublish_encoded h hblock hprops hnone hparts
  rw [decodePubMessage_congr hver] at hcode hsame'
  exact ⟨htype, hcode, hsame.samePublish hsame'⟩

end NanoMQ
