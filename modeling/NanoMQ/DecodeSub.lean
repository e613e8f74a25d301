import NanoMQ.Nng

/-!
# Decoding a SUBSCRIBE

`decodeSubMsg` is `decode_sub_msg`: the packet identifier, the properties of MQTT 5 and then one
topic node for each entry of the payload. The loop allocates a node before it knows whether there is
an entry for it, and leaves with success when it finds none. The result also lists the spans of the
body that were read, those of the properties and strings once it is known where they end. Bytes
behind the end of the body are taken to be zero.
-/

namespace NanoMQ

open ByteBuffer

namespace ReasonCode

def grantedQos2 : ReasonCode := 0x02
def unspecifiedError : ReasonCode := 0x80
def payloadFormatInvalid : ReasonCode := 0x99

end ReasonCode

/-- The bit fields of a `topic_node`, which lie over its first byte. -/
structure SubOptions where
  qos : Fin 4
  noLocal : Bool
  rap : Bool
  retainHandling : Fin 4
  deriving DecidableEq, Repr

def SubOptions.ofByte (b : UInt8) : SubOptions where
  qos := Fin.ofNat 4 b.toNat
  noLocal := b.toNat / 4 % 2 = 1
  rap := b.toNat / 8 % 2 = 1
  retainHandling := Fin.ofNat 4 (b.toNat / 16)

def SubOptions.toByte (o : SubOptions) : UInt8 :=
  UInt8.ofNat (o.retainHandling * 16 + o.rap.toNat * 8 + o.noLocal.toNat * 4 + o.qos)

theorem SubOptions.ofByte_toByte (o : SubOptions) : SubOptions.ofByte o.toByte = o := by
  obtain ⟨q, l, r, h⟩ := o
  have hbits : ∀ (q h : Fin 4) (l r : Bool),
      SubOptions.ofByte (SubOptions.toByte ⟨q, l, r, h⟩) = ⟨q, l, r, h⟩ := by decide
  exact hbits q h l r

structure TopicNode where
  options : SubOptions
  reasonCode : ReasonCode
  topicBody : Option Bytes
  topicLen : ℤ
  deriving DecidableEq, Repr

def TopicNode.fresh : TopicNode := ⟨⟨0, false, false, 0⟩, ReasonCode.grantedQos2, none, 0⟩

structure SubPacket where
  packetId : ℕ
  properties : Option PropertyList
  propLen : ℕ
  node : List TopicNode
  deriving DecidableEq, Repr

def SubPacket.freeProperties (pkt : SubPacket) : SubPacket :=
  if pkt.properties.isSome then { pkt with properties := none, propLen := 0 } else pkt

structure SubDecoded where
  code : ReasonCode
  packet : SubPacket
  /-- Start and length of each span of the body that was read. -/
  reads : List (ℕ × ℕ)
  deriving DecidableEq, Repr

def sharePrefix : Bytes := ascii "$share/"

/-- The reason code of a shared subscription that is refused. The name ends at the first slash, and
a wildcard counts if it stands before that. -/
def shareError (ver : ProtoVer) (noLocal : Bool) (topic : Bytes) (len : ℤ) : Option ReasonCode :=
  if sharePrefix.isPrefixOf (cstr topic) then
    if ver = ProtoVer.v5 ∧ noLocal = true then some ReasonCode.payloadFormatInvalid
    else if len ≤ 8 then some ReasonCode.payloadFormatInvalid
    else
      let rest := (cstr topic).drop 7
      match rest.idxOf? 0x2f with
      | none => some ReasonCode.malformedPacket
      | some nameEnd =>
          if nameEnd = 0 ∨ nameEnd + 1 = rest.length then some ReasonCode.malformedPacket
          else if (rest.idxOf? 0x23).any (· < nameEnd) ∨ (rest.idxOf? 0x2b).any (· < nameEnd) then
            some ReasonCode.payloadFormatInvalid
          else none
  else none

/-- What one pass through the loop makes of the payload at a position: a code other than zero leaves
the function, zero goes on at `next`. -/
structure EntryResult where
  code : ReasonCode
  node : TopicNode
  next : ℕ
  reads : List (ℕ × ℕ)
  deriving DecidableEq, Repr

section Loop

variable (nng : Nng) (ver : ProtoVer) (payload : Bytes) (payloadLen : ℕ)

def refusedFilter (tn : TopicNode) (pos : ℕ) (reads : List (ℕ × ℕ)) : EntryResult :=
  if ver = ProtoVer.v5 then
    ⟨ReasonCode.protocolError, { tn with reasonCode := ReasonCode.malformedPacket }, pos, reads⟩
  else
    ⟨ReasonCode.unspecifiedError, { tn with reasonCode := ReasonCode.unspecifiedError }, pos, reads⟩

def decodeSubOption (tn : TopicNode) (topic : Bytes) (pos : ℕ) (reads : List (ℕ × ℕ)) :
    EntryResult :=
  if pos ≥ payloadLen then
    ⟨ReasonCode.protocolError, { tn with reasonCode := ReasonCode.malformedPacket }, pos, reads⟩
  else
    let tn := { tn with options := SubOptions.ofByte (byteAt payload pos) }
    let reads := reads ++ [(pos, 1)]
    if (tn.options.retainHandling : ℕ) > 2 then
      ⟨ReasonCode.protocolError, { tn with reasonCode := ReasonCode.protocolError }, pos, reads⟩
    else
      match shareError ver tn.options.noLocal topic tn.topicLen with
      | some code => ⟨ReasonCode.protocolError, { tn with reasonCode := code }, pos + 1, reads⟩
      | none => ⟨ReasonCode.success, tn, pos + 1, reads⟩

def decodeSubEntry (ppos : ℕ) : EntryResult :=
  let str := nng.copynUtf8Str payload ppos (i32 (payloadLen - ppos))
  let tn := { TopicNode.fresh with topicBody := str.dest, topicLen := str.len }
  match str.dest with
  | none => refusedFilter ver tn str.pos []
  | some topic =>
      if str.len < 1 then refusedFilter ver tn str.pos [(ppos, str.pos - ppos)]
      else decodeSubOption ver payload payloadLen tn topic str.pos [(ppos, str.pos - ppos)]

structure NodeScan where
  code : ReasonCode
  nodes : List TopicNode
  reads : List (ℕ × ℕ)
  deriving DecidableEq, Repr

def NodeScan.stop : NodeScan := ⟨ReasonCode.success, [TopicNode.fresh], []⟩

def NodeScan.cons (e : EntryResult) (r : NodeScan) : NodeScan :=
  ⟨r.code, e.node :: r.nodes, e.reads ++ r.reads⟩

/-- The loop. Every pass that goes on moves forward, so the payload is used up before the first
argument is. -/
def decodeSubLoop : ℕ → ℕ → NodeScan
  | 0, _ => NodeScan.stop
  | fuel + 1, ppos =>
      if ppos ≥ payloadLen then NodeScan.stop
      else
        let e := decodeSubEntry nng ver payload payloadLen ppos
        if e.code ≠ ReasonCode.success then ⟨e.code, [e.node], e.reads⟩
        else if e.next < payloadLen then (decodeSubLoop fuel e.next).cons e
        else ⟨ReasonCode.success, [e.node], e.reads⟩

end Loop

section Decode

variable (nng : Nng) (m : Msg) (ver : ProtoVer)

def subPayloadStart : ℕ := if ver = ProtoVer.v5 then (nng.decodeProperties m 2).pos else 2

def subHeader : SubPacket :=
  if ver = ProtoVer.v5 then
    ⟨get16 m.body 0, (nng.decodeProperties m 2).list, (nng.decodeProperties m 2).len, []⟩
  else ⟨get16 m.body 0, none, 0, []⟩

def decodeSubPayload (bpos start : ℕ) (pkt : SubPacket) : SubDecoded :=
  if bpos > m.body.length then
    ⟨ReasonCode.protocolError, { pkt with node := [{ TopicNode.fresh with reasonCode := 0 }] },
      [(0, 2)]⟩
  else
    let payloadLen := m.body.length - bpos
    let r := decodeSubLoop nng ver (m.body.drop start) payloadLen payloadLen 0
    ⟨r.code, { pkt with node := r.nodes },
      [(0, 2), (2, bpos - 2)] ++ r.reads.map (fun span => (start + span.1, span.2))⟩

def decodeSubMsg : SubDecoded :=
  if get16 m.body 0 = 0 then ⟨ReasonCode.protocolError, ⟨0, none, 0, []⟩, [(0, 2)]⟩
  else
    let pkt := subHeader nng m ver
    if ver = ProtoVer.v5 ∧ nng.checkProperties pkt.properties m ≠ ReasonCode.success then
      ⟨ReasonCode.protocolError, pkt.freeProperties, [(0, 2)]⟩
    else
      match nng.payloadPtr m with
      | none => ⟨ReasonCode.protocolError, pkt.freeProperties, [(0, 2)]⟩
      | some start => decodeSubPayload nng m ver (subPayloadStart nng m ver) start pkt

end Decode

end NanoMQ
