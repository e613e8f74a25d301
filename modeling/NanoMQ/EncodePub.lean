import NanoMQ.DecodeSound

/-!
# Encoding a PUBLISH

`encodePubMessage` writes a packet into a message whose command type tells the protocol version.
The fixed header byte goes first and the remaining length last, when the body is complete. A topic
of length zero is left out together with its length bytes. When the properties cannot be encoded
the function gives up with the message half written.

Decoding is complete for the layout of the standard, which turns the round trip into the statement
that the encoder produces this layout.
-/

namespace NanoMQ

open ByteBuffer

structure Encoded where
  ok : Bool
  msg : Msg
  packet : PubPacket
  deriving DecidableEq, Repr

/-- The version that `encode_pub_message` reads off the command type. -/
def CmdType.protoVer : CmdType → ProtoVer
  | .publishV5 => ProtoVer.v5
  | .publish => ProtoVer.v311
  | _ => 0

def topicBytes (pkt : PubPacket) : Bytes :=
  if pkt.topicLen > 0 then put16 pkt.topicLen ++ (pkt.topicBody.getD []).take pkt.topicLen else []

def identBytes (pkt : PubPacket) : Bytes :=
  if pkt.fixedHeader.qos > 0 then put16 pkt.packetId.toNat else []

/-- The property block for a version, or `none` where `encode_properties` fails. -/
def encodedBlock (nng : Nng) (proto : ProtoVer) (pkt : PubPacket) : Option Bytes :=
  if proto = ProtoVer.v5 then nng.encodeProperties pkt.properties .publish else some []

def payloadBytes (pkt : PubPacket) : Bytes :=
  if pkt.payloadLen > 0 then (pkt.payloadData.getD []).take pkt.payloadLen else []

def encodePublish (nng : Nng) (dest : Msg) (pkt : PubPacket) : Encoded :=
  let pkt := { pkt with fixedHeader := { pkt.fixedHeader with packetType := PacketType.publish } }
  let dest :=
    { dest with
      header := [pkt.fixedHeader.toByte]
      body := topicBytes pkt ++ identBytes pkt }
  match encodedBlock nng dest.cmdType.protoVer pkt with
  | none => ⟨false, dest, pkt⟩
  | some block =>
      let dest := { dest with body := dest.body ++ block ++ payloadBytes pkt }
      let remainLen := dest.body.length
      let pkt := { pkt with fixedHeader := { pkt.fixedHeader with remainLen := remainLen } }
      ⟨true, { dest with header := dest.header ++ nng.putVarInteger remainLen }, pkt⟩

/-- The acknowledgements; the cases of the `switch` fall through to the last command type. -/
def encodePubAck (nng : Nng) (dest : Msg) (pkt : PubPacket) (cmd : PacketType) : Encoded :=
  let header : FixedHeader := ⟨false, 0, false, cmd, 2⟩
  ⟨true,
    { dest with
      cmdType := .pubcomp
      header := header.toByte :: nng.putVarInteger header.remainLen
      body := put16 pkt.packetId.toNat }, pkt⟩

def encodePubMessage (nng : Nng) (dest : Msg) (pkt : PubPacket) (cmd : PacketType) : Encoded :=
  let dest := { dest with header := [], body := [] }
  if cmd = PacketType.publish then encodePublish nng dest pkt
  else if cmd ∈ [PacketType.pubrel, PacketType.puback, PacketType.pubrec, PacketType.pubcomp] then
    encodePubAck nng dest pkt cmd
  else ⟨true, dest, pkt⟩

/-- The packets agree but for the packet type and the remaining length. -/
structure SameParts (pkt pkt' : PubPacket) : Prop where
  dup : pkt'.fixedHeader.dup = pkt.fixedHeader.dup
  qos : pkt'.fixedHeader.qos = pkt.fixedHeader.qos
  retain : pkt'.fixedHeader.retain = pkt.fixedHeader.retain
  packetId : pkt'.packetId = pkt.packetId
  topicBody : pkt'.topicBody = pkt.topicBody
  topicLen : pkt'.topicLen = pkt.topicLen
  properties : pkt'.properties = pkt.properties
  payloadData : pkt'.payloadData = pkt.payloadData
  payloadLen : pkt'.payloadLen = pkt.payloadLen

theorem SameParts.refl (pkt : PubPacket) : SameParts pkt pkt :=
  ⟨rfl, rfl, rfl, rfl, rfl, rfl, rfl, rfl, rfl⟩

theorem packet_encodePubMessage (nng : Nng) (dest : Msg) (pkt : PubPacket) :
    SameParts pkt (encodePubMessage nng dest pkt PacketType.publish).packet := by
  rw [encodePubMessage, if_pos rfl]
  unfold encodePublish
  dsimp only
  split <;> exact ⟨rfl, rfl, rfl, rfl, rfl, rfl, rfl, rfl, rfl⟩

/-- The encoder writes header and body, and leaves the attributes of the message alone. -/
theorem encodePubMessage_mark (nng : Nng) (dest : Msg) (pkt : PubPacket) (pipe : ℕ)
    (ver : ProtoVer) :
    (encodePubMessage nng { dest with pipe := pipe, publishProtoVersion := ver } pkt
        PacketType.publish).msg =
      { (encodePubMessage nng dest pkt PacketType.publish).msg with
        pipe := pipe, publishProtoVersion := ver } := by
  simp only [encodePubMessage, if_pos, encodePublish]
  split <;> rfl

/-- A packet that stands for a PUBLISH: the topic is not empty and could be decoded. -/
structure IsPublish (nng : Nng) (pkt : PubPacket) (topic payload : Bytes) : Prop where
  topicBody : pkt.topicBody = some topic
  topicLen : pkt.topicLen = topic.length
  topic_ne : topic ≠ []
  topic_lt : topic.length < 65536
  utf8 : nng.utf8Check topic = true
  no_plus : 0x2b ∉ topic
  no_hash : 0x23 ∉ topic
  payloadData : pkt.payloadData.getD [] = payload
  payloadLen : pkt.payloadLen = payload.length

section Encode

variable {nng : Nng} {pkt : PubPacket} {topic payload : Bytes}

def publishByte (pkt : PubPacket) : UInt8 :=
  { pkt.fixedHeader with packetType := PacketType.publish }.toByte

theorem IsPublish.topicBytes_eq (h : IsPublish nng pkt topic payload) :
    topicBytes pkt = put16 topic.length ++ topic := by
  have hpos : topic.length > 0 := List.length_pos_of_ne_nil h.topic_ne
  rw [topicBytes, h.topicLen, if_pos hpos, h.topicBody, Option.getD_some, List.take_length]

theorem IsPublish.payloadBytes_eq (h : IsPublish nng pkt topic payload) :
    payloadBytes pkt = payload := by
  rw [payloadBytes, h.payloadLen, h.payloadData, List.take_length]
  split_ifs with hpos
  · rfl
  · exact (List.eq_nil_of_length_eq_zero (Nat.eq_zero_of_not_pos hpos)).symm

def publishBody (topic payload block : Bytes) (pkt : PubPacket) : Bytes :=
  put16 topic.length ++ (topic ++ (identBytes pkt ++ (block ++ payload)))

theorem encodePubMessage_eq (h : IsPublish nng pkt topic payload) (dest : Msg) {block : Bytes}
    (hblock : encodedBlock nng dest.cmdType.protoVer pkt = some block) :
    (encodePubMessage nng dest pkt PacketType.publish).msg =
      { dest with
        header := publishByte pkt :: nng.putVarInteger (publishBody topic payload block pkt).length
        body := publishBody topic payload block pkt } := by
  have hbody : topicBytes pkt ++ identBytes pkt ++ block ++ payloadBytes pkt =
      publishBody topic payload block pkt := by
    rw [h.topicBytes_eq, h.payloadBytes_eq, publishBody]
    simp only [List.append_assoc]
  rw [encodePubMessage, if_pos rfl, encodePublish, ← hbody]
  change (match encodedBlock nng dest.cmdType.protoVer pkt with
    | none => _
    | some block => _ : Encoded).msg = _
  rw [hblock]
  rfl

/-- The encoder only fails where the properties cannot be encoded. -/
theorem ok_encodePubMessage_iff {dest : Msg} :
    (encodePubMessage nng dest pkt PacketType.publish).ok = true ↔
      ∃ block, encodedBlock nng dest.cmdType.protoVer pkt = some block := by
  rw [encodePubMessage, if_pos rfl, encodePublish]
  change (match encodedBlock nng dest.cmdType.protoVer pkt with
    | none => _
    | some block => _ : Encoded).ok = true ↔ _
  cases encodedBlock nng dest.cmdType.protoVer pkt with
  | some block => exact iff_of_true rfl ⟨block, rfl⟩
  | none => exact iff_of_false Bool.false_ne_true (by rintro ⟨block, ⟨⟩⟩)

end Encode

end NanoMQ
