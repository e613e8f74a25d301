import NanoMQ.EncodePub

/-!
# The PUBLISH codec round trip

A body with the layout of the standard is decoded to its parts (`PublishLayout.decode`), the
counterpart of the soundness of the decoder. The encoder writes such a body whenever the properties
can be encoded, so that decoding a freshly encoded message gives the packet back.
-/

namespace NanoMQ

open ByteBuffer

namespace PublishLayout

variable {nng : Nng} {m : Msg} {proto : ProtoVer} {topic ident block rest : Bytes}
  (h : PublishLayout nng m proto topic ident block rest)

include h

theorem get16_eq : get16 m.body 0 = topic.length := by
  rw [h.body, get16_put16_append _ _ h.topic_lt]

theorem slice_topic : slice m.body 2 (get16 m.body 0) = topic := by
  rw [h.get16_eq, h.body]
  exact slice_append_right (put16 topic.length) topic _

theorem slice_ident : slice m.body (2 + get16 m.body 0) (identLen nng m) = ident := by
  have hpre : (put16 topic.length ++ topic).length = 2 + topic.length := by
    rw [List.length_append, length_put16]
  rw [h.get16_eq, h.body, identLen, ← h.ident_len, ← List.append_assoc, ← hpre]
  exact slice_append_right _ ident _

theorem propsStart_eq : propsStart nng m = 2 + topic.length + ident.length := by
  rw [propsStart, identLen, h.get16_eq, h.ident_len]

theorem drop_payloadStart : m.body.drop (payloadStart nng m proto) = rest := by
  have hlen := h.length_body
  have hbody : m.body = (put16 topic.length ++ (topic ++ (ident ++ block))) ++ rest := by
    simp only [h.body, List.append_assoc]
  have hpre : (put16 topic.length ++ (topic ++ (ident ++ block))).length =
      payloadStart nng m proto := by
    have hsum := congrArg List.length hbody
    rw [List.length_append] at hsum
    omega
  rw [← hpre]
  conv_lhs => rw [hbody]
  exact List.drop_left

theorem isStr (hlen : m.body.length < 2147483648) :
    nng.IsStr m.body 0 (i32 m.body.length) := by
  have hbody := congrArg List.length h.body
  simp only [List.length_append, length_put16] at hbody
  constructor
  · rw [i32_of_lt hlen, h.get16_eq]
    omega
  · rw [Nat.zero_add, h.slice_topic]
    exact h.utf8

theorem blockOk : BlockOk nng m proto (propsStart nng m) := by
  have hlen := h.length_body
  have hstart : payloadStart nng m proto ≤ m.body.length := by omega
  unfold payloadStart at hstart
  unfold BlockOk
  split_ifs at hstart ⊢ with hv
  · refine ⟨?_, hstart⟩
    rw [h.propsStart_eq]
    exact h.block_check hv
  · exact hstart

theorem accepts (hlaw : nng.LawfulStr) (hlen : m.body.length < 2147483648)
    (hremain : (m.fixedHeader nng).remainLen ≤ m.body.length)
    (hvar : (nng.mqttGetRemainingLength m.header).2 ≤ 4) : Accepts nng m proto := by
  have hstr := h.isStr hlen
  have hident := identEnd_of_isStr hlaw hstr
  have hnul := hlaw.utf8_no_nul _ h.utf8
  refine ⟨hremain, hvar, ?_, ?_, ?_⟩
  · rw [topicStr_of_isStr hlaw hstr, h.slice_topic]
    dsimp only
    split_ifs
    · rfl
    · rw [topicHasWildcard, Bool.or_eq_false_iff, Bool.eq_false_iff, Bool.eq_false_iff]
      exact ⟨fun hp => h.no_plus ((strchr_of_not_mem hnul _).mp hp),
        fun hh => h.no_hash ((strchr_of_not_mem hnul _).mp hh)⟩
  · intro _
    have hbody := congrArg List.length h.body
    simp only [List.length_append, length_put16] at hbody
    rw [hident, h.propsStart_eq]
    omega
  · rw [hident]
    exact h.blockOk

theorem decode (hlaw : nng.LawfulStr) (hpub : m.getType = PacketType.publish)
    (hlen : m.body.length < 2147483648)
    (hremain : (m.fixedHeader nng).remainLen ≤ m.body.length)
    (hvar : (nng.mqttGetRemainingLength m.header).2 ≤ 4) :
    (decodePubMessage nng m proto PubPacket.zalloc).code = ReasonCode.success ∧
      HoldsParts nng m proto (decodePubMessage nng m proto PubPacket.zalloc).packet topic ident
        rest := by
  have hacc := h.accepts hlaw hlen hremain hvar
  have hparts := holdsParts_of_accepts hlaw (h.isStr hlen) hacc (by omega)
  rw [h.slice_topic, h.slice_ident, h.drop_payloadStart] at hparts
  rw [hacc.decodePubMessage_eq hpub]
  exact ⟨rfl, hparts⟩

end PublishLayout

structure SamePublish (pkt pkt' : PubPacket) : Prop where
  dup : pkt'.fixedHeader.dup = pkt.fixedHeader.dup
  qos : pkt'.fixedHeader.qos = pkt.fixedHeader.qos
  retain : pkt'.fixedHeader.retain = pkt.fixedHeader.retain
  topicBody : pkt'.topicBody = pkt.topicBody
  topicLen : pkt'.topicLen = pkt.topicLen
  packetId : pkt.fixedHeader.qos > 0 → pkt'.packetId = pkt.packetId
  properties : pkt'.properties = pkt.properties
  payloadLen : pkt'.payloadLen = pkt.payloadLen
  payloadData : pkt'.payloadData.getD [] = pkt.payloadData.getD []

section RoundTrip

variable {nng : Nng} {pkt : PubPacket} {topic payload block : Bytes} {dest : Msg}
  (h : IsPublish nng pkt topic payload)
  (hblock : encodedBlock nng dest.cmdType.protoVer pkt = some block)

include h hblock

theorem fixedHeader_encoded :
    let m := (encodePubMessage nng dest pkt PacketType.publish).msg
    m.fixedHeader nng =
      { pkt.fixedHeader with
        packetType := PacketType.publish
        remainLen := (nng.mqttGetRemainingLength m.header).1 } := by
  rw [encodePubMessage_eq h dest hblock]
  simp only [Msg.fixedHeader, List.headD_cons, publishByte, FixedHeader.ofByte_toByte]

theorem qos_encoded :
    ((encodePubMessage nng dest pkt PacketType.publish).msg.fixedHeader nng).qos =
      pkt.fixedHeader.qos := by
  rw [fixedHeader_encoded h hblock]

theorem body_encoded :
    (encodePubMessage nng dest pkt PacketType.publish).msg.body =
      put16 topic.length ++ (topic ++ (identBytes pkt ++ (block ++ payload))) := by
  rw [encodePubMessage_eq h dest hblock]
  rfl

theorem decodeProperties_encoded (hprops : nng.PropsInverse)
    (hv : dest.cmdType.protoVer = ProtoVer.v5) :
    let d := nng.decodeProperties (encodePubMessage nng dest pkt PacketType.publish).msg
      (2 + topic.length + (identBytes pkt).length)
    d.list = pkt.properties ∧
      d.pos = 2 + topic.length + (identBytes pkt).length + block.length := by
  have hpre : (put16 topic.length ++ (topic ++ identBytes pkt)).length =
      2 + topic.length + (identBytes pkt).length := by
    simp only [List.length_append, length_put16]
    omega
  rw [encodedBlock, if_pos hv] at hblock
  rw [← hpre]
  apply hprops _ pkt.properties _ block payload hblock
  rw [body_encoded h (by rw [encodedBlock, if_pos hv]; exact hblock)]
  simp only [List.append_assoc]

theorem publishLayout_encoded (hprops : nng.PropsInverse)
    (hcheck : ∀ l, pkt.properties = some l → nng.checkProperties (some l)
      (encodePubMessage nng dest pkt PacketType.publish).msg = 0) :
    PublishLayout nng (encodePubMessage nng dest pkt PacketType.publish).msg
      dest.cmdType.protoVer topic (identBytes pkt) block payload := by
  refine ⟨body_encoded h hblock, h.topic_lt, h.utf8, h.no_plus, h.no_hash, ?_, ?_, ?_, ?_⟩
  · rw [qos_encoded h hblock, identBytes]
    split_ifs
    · exact length_put16 _
    · rfl
  · intro hv
    rw [encodedBlock, if_neg hv, Option.some.injEq] at hblock
    exact hblock.symm
  · intro hv
    exact (decodeProperties_encoded h hblock hprops hv).2
  · intro hv l hl
    rw [(decodeProperties_encoded h hblock hprops hv).1] at hl
    exact hcheck l hl

theorem remainingLength_encoded (hvar : nng.VarintInverse)
    (hlen : (encodePubMessage nng dest pkt PacketType.publish).msg.body.length ≤ 268435455) :
    let m := (encodePubMessage nng dest pkt PacketType.publish).msg
    (nng.mqttGetRemainingLength m.header).1 = m.body.length ∧
      (nng.mqttGetRemainingLength m.header).2 ≤ 4 := by
  rw [encodePubMessage_eq h dest hblock] at hlen ⊢
  exact hvar _ _ hlen

/-- The decoder takes the encoded message apart again. -/
theorem holdsParts_encoded (hlaw : nng.LawfulStr) (hprops : nng.PropsInverse)
    (hvar : nng.VarintInverse)
    (hcheck : ∀ l, pkt.properties = some l → nng.checkProperties (some l)
      (encodePubMessage nng dest pkt PacketType.publish).msg = 0)
    (hlen : (encodePubMessage nng dest pkt PacketType.publish).msg.body.length ≤ 268435455) :
    let m := (encodePubMessage nng dest pkt PacketType.publish).msg
    let d := decodePubMessage nng m dest.cmdType.protoVer PubPacket.zalloc
    d.code = ReasonCode.success ∧
      HoldsParts nng m dest.cmdType.protoVer d.packet topic (identBytes pkt) payload := by
  obtain ⟨hrem, hused⟩ := remainingLength_encoded h hblock hvar hlen
  have htype := congrArg FixedHeader.packetType (fixedHeader_encoded h hblock)
  apply (publishLayout_encoded h hblock hprops hcheck).decode hlaw htype (by omega) _ hused
  exact hrem.le

theorem samePublish_encoded (hprops : nng.PropsInverse)
    (hnone : dest.cmdType.protoVer ≠ ProtoVer.v5 → pkt.properties = none) {pkt' : PubPacket}
    (hparts : HoldsParts nng (encodePubMessage nng dest pkt PacketType.publish).msg
      dest.cmdType.protoVer pkt' topic (identBytes pkt) payload) :
    SamePublish pkt pkt' := by
  have hhead := hparts.header.trans (fixedHeader_encoded h hblock)
  refine ⟨by rw [hhead], by rw [hhead], by rw [hhead], ?_, ?_, ?_, ?_, ?_, ?_⟩
  · rw [hparts.topicBody, if_neg h.topic_ne, h.topicBody]
  · rw [hparts.topicLen, h.topicLen]
  · intro hq
    have hid := hparts.packetId (by rwa [qos_encoded h hblock])
    rw [identBytes, if_pos hq] at hid
    apply UInt16.toNat_inj.mp
    exact (put16_inj pkt.packetId.toNat_lt pkt'.packetId.toNat_lt hid).symm
  · rw [hparts.properties]
    split_ifs with hv
    · exact (decodeProperties_encoded h hblock hprops hv).1
    · exact (hnone hv).symm
  · rw [hparts.payloadLen, h.payloadLen]
  · rw [hparts.payloadData, h.payloadData]
    split_ifs with hnil
    · exact hnil.symm
    · rfl

end RoundTrip

/-- Decoding what was just encoded gives the packet back, for MQTT 5 and for MQTT 3.1.1. -/
theorem encode_decode_publish {nng : Nng} (hlaw : nng.LawfulStr) (hprops : nng.PropsInverse)
    (hvar : nng.VarintInverse) {pkt : PubPacket} {topic payload : Bytes}
    (h : IsPublish nng pkt topic payload) {dest : Msg} {proto : ProtoVer}
    (hver : (proto = ProtoVer.v5 ∧ dest.cmdType = .publishV5) ∨
      (proto = ProtoVer.v311 ∧ dest.cmdType = .publish ∧ pkt.properties = none))
    (hok : (encodePubMessage nng dest pkt PacketType.publish).ok = true)
    (hcheck : ∀ l, pkt.properties = some l → nng.checkProperties (some l)
      (encodePubMessage nng dest pkt PacketType.publish).msg = 0)
    (hlen : (encodePubMessage nng dest pkt PacketType.publish).msg.body.length ≤ 268435455) :
    let m := (encodePubMessage nng dest pkt PacketType.publish).msg
    (nng.mqttGetRemainingLength m.header).1 = m.body.length ∧
      (decodePubMessage nng m proto PubPacket.zalloc).code = ReasonCode.success ∧
      SamePublish pkt (decodePubMessage nng m proto PubPacket.zalloc).packet := by
  obtain ⟨block, hblock⟩ := ok_encodePubMessage_iff.mp hok
  have hproto : dest.cmdType.protoVer = proto := by
    rcases hver with ⟨hp, hc⟩ | ⟨hp, hc, -⟩ <;> rw [hp, hc] <;> rfl
  have hnone : dest.cmdType.protoVer ≠ ProtoVer.v5 → pkt.properties = none := by
    intro hv
    rcases hver with ⟨hp, -⟩ | ⟨-, -, hn⟩
    · exact absurd (hproto.trans hp) hv
    · exact hn
  obtain ⟨hcode, hparts⟩ := holdsParts_encoded h hblock hlaw hprops hvar hcheck hlen
  have hsame := samePublish_encoded h hblock hprops hnone hparts
  rw [hproto] at hcode hsame
  exact ⟨(remainingLength_encoded h hblock hvar hlen).1, hcode, hsame⟩

/-- A QoS 1 PUBLISH of MQTT 5 with a topic alias. -/
theorem encode_decode_alias_publish :
    let pkt : PubPacket :=
      { PubPacket.zalloc with
        fixedHeader := ⟨true, 1, false, PacketType.publish, 0⟩
        packetId := 7, topicBody := some (ascii "t"), topicLen := 1
        properties := some [⟨topicAliasId, .u16 2⟩]
        payloadData := some (ascii "x"), payloadLen := 1 }
    let m := (encodePubMessage Nng.reference { Msg.alloc with cmdType := .publishV5 } pkt
      PacketType.publish).msg
    (Nng.reference.mqttGetRemainingLength m.header).1 = m.body.length ∧
      (decodePubMessage Nng.reference m ProtoVer.v5 PubPacket.zalloc).code = ReasonCode.success ∧
      SamePublish pkt (decodePubMessage Nng.reference m ProtoVer.v5 PubPacket.zalloc).packet := by
  intro pkt m
  have h : IsPublish Nng.reference pkt (ascii "t") (ascii "x") := by constructor <;> decide
  exact encode_decode_publish Reference.lawfulStr Reference.propsInverse Reference.varintInverse h
    (Or.inl ⟨rfl, rfl⟩) rfl (fun _ _ => rfl) (by decide)

end NanoMQ
