import NanoMQ.BridgeCoding

/-!
# Where messages come from

The conversion at the head of state RECV. A message of the HTTP server or of an AWS bridge comes in
a frame of length-prefixed parts, one of iceoryx in a frame of its own, and one of the NNG proxy is
adapted by the library. A source whose message is no PUBLISH drops it and receives again.
-/

namespace NanoMQ

open ByteBuffer

def createCparam (clientid : Bytes) (ver : ProtoVer) : ConnParam :=
  ⟨some clientid, none, none, none, ver, false, none, none, 0, false, none⟩

/-- `decode_common_mqtt_msg`: header, body and client identifier, each behind its length in four
bytes, and the version in the last one. The SDK's decoder leaves the bytes alone. -/
def decodeCommonMqttMsg (src : Msg) : Msg :=
  let headerLen := get32 src.body 0
  let bodyLen := get32 src.body (4 + headerLen)
  let clientidSz := get32 src.body (8 + headerLen + bodyLen)
  let clientid := slice src.body (12 + headerLen + bodyLen) clientidSz
  let ver := byteAt src.body (12 + headerLen + bodyLen + clientidSz)
  { Msg.alloc with
    header := slice src.body 4 headerLen
    body := slice src.body (8 + headerLen) bodyLen
    connParam := some (createCparam (cstr clientid) ver) }

/-- `nano_iceoryx_recv_nng_msg`: the header behind its length in one byte, the body behind its
length in four. -/
def nanoIceoryxRecvNngMsg (icemsg : Msg) : Msg :=
  let headerLen := (byteAt icemsg.body 0).toNat
  let bodyLen := get32 icemsg.body (1 + headerLen)
  { Msg.alloc with
    header := slice icemsg.body 1 headerLen
    body := slice icemsg.body (5 + headerLen) bodyLen
    connParam := some (createCparam (ascii "atestclientid") ProtoVer.v311) }

def nanoIceoryxTopicFilter (icetopic : Bytes) (topic : Option Bytes) (topicsz : ℕ) : Bool :=
  match topic with
  | none => false
  | some t => topicsz ≠ 0 && icetopic.length = topicsz && icetopic = (cstr t).take topicsz

inductive AioResult
  | ok | connShut | failed
  deriving DecidableEq, Repr

/-- The message of a source as an MQTT message, with the work that keeps what it needs of it, or
`none` when the message is dropped. -/
def takeMsg (nng : Nng) (conf : Conf) (result : AioResult) (w : Work) (m : Msg) :
    Option (Work × Msg) :=
  match w.proto with
  | .mqttBroker => some (w, m)
  | .mqttBridge =>
      if m.getType = PacketType.connack then some (w, m)
      else if m.getType = PacketType.publish then
        -- the event of a lost connection is not recoded
        if result = .ok then
          let w := bridgeDownwardMsgCoding nng w m
          some (w, w.msg.getD m)
        else some (w, m)
      else none
  | .httpServer | .awsBridge =>
      let d := decodeCommonMqttMsg m
      if d.getType = PacketType.publish then some (w, { d with cmdType := .publish }) else none
  | .iceoryxBridge =>
      if conf.build.iceoryx then
        some (w, { nanoIceoryxRecvNngMsg m with cmdType := .publish })
      else some (w, m)
  | .nngBridge =>
      (nng.nngSub0MsgAdapter m).map
        (fun d => ({ w with nmsg := some m }, { d with connParam := w.cparam }))

theorem takeMsg_broker (nng : Nng) (conf : Conf) (result : AioResult) {w : Work}
    (hbroker : w.proto = .mqttBroker) (m : Msg) : takeMsg nng conf result w m = some (w, m) := by
  unfold takeMsg
  rw [hbroker]

theorem takeMsg_proto {nng : Nng} {conf : Conf} {result : AioResult} {w w' : Work} {raw m : Msg}
    (ht : takeMsg nng conf result w raw = some (w', m)) : w'.proto = w.proto := by
  unfold takeMsg at ht
  cases hp : w.proto <;> rw [hp] at ht <;> dsimp only at ht
  case mqttBridge =>
    split_ifs at ht <;> cases ht
    · exact hp
    · rw [bridgeDownwardMsgCoding_proto, hp]
    · exact hp
  case nngBridge =>
    obtain ⟨d, -, hd⟩ := Option.map_eq_some_iff.mp ht
    cases hd
    rfl
  all_goals first
    | (split_ifs at ht <;> cases ht <;> exact hp)
    | (cases ht; exact hp)

/-- The receive is taken up: it succeeded, or it brings the event of a lost connection to a work
that is not of the broker. -/
def accepted (result : AioResult) (w : Work) (m : Option Msg) : Option Msg :=
  if result = .ok ∨ w.proto ≠ .mqttBroker ∧ result = .connShut then m else none

end NanoMQ
