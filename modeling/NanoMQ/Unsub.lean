import NanoMQ.DecodeSub
import NanoMQ.SubTables

/-!
# Handling an UNSUBSCRIBE

The packet and its nodes come from `nng_alloc`, which does not clear them. A field that was never
assigned is `none` here, and so is a byte of the answer that is taken from one. `server_cb` goes on
to the answer, and hands the nodes to the bridges, whether or not the decoding succeeded.
-/

namespace NanoMQ

open ByteBuffer

/-- `topic_node` with the fields that may be unassigned. -/
structure UnsubNode where
  topicBody : Option Bytes
  topicLen : Option ℕ
  reasonCode : Option ReasonCode
  deriving DecidableEq, Repr

def UnsubNode.alloc : UnsubNode := ⟨none, none, none⟩

/-- `packet_unsubscribe`; `node` is `none` while the pointer itself is unassigned. -/
structure UnsubPacket where
  packetId : Option ℕ
  node : Option (List UnsubNode)
  deriving DecidableEq, Repr

structure UnsubDecoded where
  code : ReasonCode
  packet : UnsubPacket
  deriving DecidableEq, Repr

structure UnsubScan where
  code : ReasonCode
  nodes : List UnsubNode
  deriving DecidableEq, Repr

section Decode

variable (nng : Nng) (payload : Bytes) (payloadLen : ℕ)

/-- One pass of the loop: the code that ends the function, or zero, with the node and the position
it goes on at. -/
def decodeUnsubEntry (bpos : ℕ) : ReasonCode × UnsubNode × ℕ :=
  let str := nng.getUtf8Str payload bpos payloadLen
  if str.len = -1 then
    (ReasonCode.protocolError,
      { UnsubNode.alloc with
        topicBody := str.dest, reasonCode := some ReasonCode.unspecifiedError }, str.pos)
  else
    (ReasonCode.success,
      { UnsubNode.alloc with topicBody := str.dest, topicLen := some str.len.toNat }, str.pos)

def decodeUnsubLoop : ℕ → ℕ → UnsubScan
  | 0, bpos =>
      let (code, tn, _) := decodeUnsubEntry nng payload payloadLen bpos
      ⟨code, [tn]⟩
  | fuel + 1, bpos =>
      let (code, tn, next) := decodeUnsubEntry nng payload payloadLen bpos
      if code ≠ ReasonCode.success then ⟨code, [tn]⟩
      else if next < payloadLen then
        let r := decodeUnsubLoop fuel next
        ⟨r.code, tn :: r.nodes⟩
      else ⟨ReasonCode.success, [tn]⟩

end Decode

section Handle

variable (nng : Nng) (ver : ProtoVer) (pid : ℕ)

def decodeUnsubMsg (m : Msg) : UnsubDecoded :=
  let vpos := subPayloadStart nng m ver
  if m.body.length < 2 then ⟨ReasonCode.protocolError, ⟨none, none⟩⟩
  else if ver = ProtoVer.v5 ∧
      nng.checkProperties (nng.decodeProperties m 2).list m ≠ ReasonCode.success then
    ⟨ReasonCode.protocolError, ⟨some (get16 m.body 0), none⟩⟩
  else if vpos > m.body.length then ⟨ReasonCode.protocolError, ⟨some (get16 m.body 0), none⟩⟩
  else
    let len := m.body.length - vpos
    let r := decodeUnsubLoop nng (m.body.drop vpos) len len 0
    ⟨r.code, ⟨some (get16 m.body 0), some r.nodes⟩⟩

def unsubCode (rv : ℕ) : ReasonCode := if rv = 0 then 0x00 else 0x11

def unsubEntryStep (c : List UnsubNode × Store) (tn : UnsubNode) : List UnsubNode × Store :=
  if tn.topicLen = some 0 then (c.1 ++ [tn], c.2)
  else
    let r := c.2.subCtxDel (cstr (tn.topicBody.getD [])) pid
    (c.1 ++ [{ tn with reasonCode := some (unsubCode r.1) }], r.2)

def unsubCtxHandle (nodes : List UnsubNode) (st : Store) : List UnsubNode × Store :=
  nodes.foldl (unsubEntryStep pid) ([], st)

/-- The body that `encode_unsuback_msg` writes. Through a pointer that was never assigned it reads
what no one has written. -/
def unsubackBody (pkt : UnsubPacket) : List (Option UInt8) :=
  (pkt.packetId.elim [none, none] (fun id => (put16 id).map some)) ++
    if ver = ProtoVer.v5 then
      ((nng.encodeProperties none .unsuback).getD []).map some ++
        pkt.node.elim [none] (List.map UnsubNode.reasonCode)
    else []

def bridgeFilters (pkt : UnsubPacket) : List (Option Bytes × Option ℕ) :=
  pkt.node.elim [(none, none)] (List.map (fun tn => (tn.topicBody, tn.topicLen)))

structure UnsubOutcome where
  store : Store
  reply : List (Option UInt8)
  filters : List (Option Bytes × Option ℕ)

def unsubscribe (m : Msg) (st : Store) : UnsubOutcome :=
  let d := decodeUnsubMsg nng ver m
  let r := if d.code ≠ ReasonCode.success then (d.packet.node, st)
    else
      let (nodes, st) := unsubCtxHandle pid (d.packet.node.getD []) st
      (some nodes, st)
  let pkt := { d.packet with node := r.1 }
  ⟨r.2, unsubackBody nng ver pkt, bridgeFilters pkt⟩

end Handle

end NanoMQ
