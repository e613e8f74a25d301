import NanoMQ.Work

/-!
# Topics from a remote broker

A bridge subscribes to topics of a remote broker and may publish what it gets under others: the
entry that takes the topic of a message can replace it, put text before and behind it, and set the
retain flag. `bridge_downward_msg_coding` decodes the message for this and returns nothing.
-/

namespace NanoMQ

open ByteBuffer

/-- The topic of a subscription entry of a bridge, and whether it differs from the one received. -/
def downwardTopic (nng : Nng) (e : Topics) (topic : Bytes) : Bytes × Bool :=
  let remapped :=
    if e.localTopic.length ≠ 0 then nng.generateRepubTopic e (some topic) true else none
  let t := remapped.getD topic
  (e.pre.getD [] ++ t ++ e.suffix.getD [], remapped.isSome || e.pre.isSome || e.suffix.isSome)

/-- The entry takes effect: the topic and the retain flag of the packet, and the message itself. -/
def downwardRemap (nng : Nng) (w : Work) (e : Topics) (topic : Bytes) : Work :=
  let pkt := w.packet
  let pkt := { pkt with fixedHeader :=
    { pkt.fixedHeader with retain := e.retain.getD pkt.fixedHeader.retain } }
  let (newTopic, changed) := downwardTopic nng e topic
  if changed then
    { w with
      pubPacket := some { pkt with topicBody := some newTopic, topicLen := newTopic.length }
      msg := w.msg.map (fun m => nng.mqttMsgEncodeTopic m newTopic w.protoVer) }
  else { w with pubPacket := some pkt }

def bridgeDownwardMsgCoding (nng : Nng) (w : Work) (m : Msg) : Work :=
  let w := w.load m
  let d := decodePubMessage nng m w.protoVer PubPacket.zalloc
  let w := { w with pubPacket := some d.packet }
  if d.code ≠ ReasonCode.success then w
  else
    match d.packet.topicBody, w.node with
    | some topic, some node =>
        match node.subs.find? (fun e => e.remoteTopic.any
            (fun r => nng.topicFilter r (some topic))) with
        | none => w
        | some e => downwardRemap nng w e topic
    | _, _ => w

theorem bridgeDownwardMsgCoding_proto (nng : Nng) (w : Work) (m : Msg) :
    (bridgeDownwardMsgCoding nng w m).proto = w.proto := by
  unfold bridgeDownwardMsgCoding downwardRemap
  dsimp only
  split_ifs
  · rfl
  · split
    · split
      · rfl
      · split_ifs <;> rfl
    · rfl

end NanoMQ
