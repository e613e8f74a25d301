import NanoMQ.ByteBuffer
import Mathlib.Data.Fin.Basic

/-!
# Messages, packets and connection parameters

The data the handlers pass around. A pointer that may be `NULL` is an `Option`; a C string is the
list of its bytes. The union of variable headers in `pub_packet_struct` is flattened: the fields of
`publish` and `pub_arrc` stand side by side and the packet type says which of them are in use.
-/

namespace NanoMQ

open ByteBuffer

/-- `reason_code` by value, since the enumeration gives `SUCCESS` and `NORMAL_DISCONNECTION` the
same one. -/
abbrev ReasonCode := UInt8

namespace ReasonCode

def success : ReasonCode := 0x00
def normalDisconnection : ReasonCode := 0x00
def malformedPacket : ReasonCode := 0x81
def protocolError : ReasonCode := 0x82
def notAuthorized : ReasonCode := 0x87
def banned : ReasonCode := 0x8a
def topicFilterInvalid : ReasonCode := 0x8f
def topicAliasInvalid : ReasonCode := 0x94

theorem protocolError_ne_success : protocolError ≠ success := by decide

end ReasonCode

abbrev ProtoVer := UInt8

namespace ProtoVer

def v31 : ProtoVer := 3
def v311 : ProtoVer := 4
def v5 : ProtoVer := 5

end ProtoVer

/-- Command types of messages, `CMD_*`; `none` is the cleared flag `0`. -/
inductive CmdType
  | none | connack | publish | publishV5 | subscribe | suback | unsubscribe | unsuback
  | disconnectEv | pubcomp | other
  deriving DecidableEq, Repr

abbrev PacketType := Fin 16

namespace PacketType

def connack : PacketType := 2
def publish : PacketType := 3
def puback : PacketType := 4
def pubrec : PacketType := 5
def pubrel : PacketType := 6
def pubcomp : PacketType := 7

-- named, so that a test for several types is the same term in every module
instance lawfulBEq : LawfulBEq PacketType := inferInstance

end PacketType

/-- The members of `p_value` that the handlers read, and the rest unread. -/
inductive PropertyValue
  | u16 (v : UInt16)
  | u32 (v : UInt32)
  | raw (b : Bytes)
  deriving DecidableEq, Repr

structure Property where
  id : UInt8
  value : PropertyValue
  deriving DecidableEq, Repr

abbrev PropertyList := List Property

def topicAliasId : UInt8 := 0x23

def propertyGetValue (props : Option PropertyList) (id : UInt8) : Option PropertyValue :=
  props.bind (fun l => (l.find? (fun p => p.id = id)).map Property.value)

def PropertyValue.asU16 : PropertyValue → UInt16
  | .u16 v => v
  | _ => 0

structure ConnParam where
  clientid : Option Bytes
  username : Option Bytes
  password : Option Bytes
  ipAddrV4 : Option Bytes
  protover : ProtoVer
  willFlag : Bool
  willTopic : Option Bytes
  willMsg : Option Bytes
  willQos : UInt8
  willRetain : Bool
  willProperty : Option PropertyList
  deriving DecidableEq, Repr

def protoverOf (cparam : Option ConnParam) : ProtoVer := cparam.elim 0 ConnParam.protover

structure Msg where
  header : Bytes
  body : Bytes
  cmdType : CmdType
  pipe : ℕ
  connParam : Option ConnParam
  timestamp : ℕ
  publishProtoVersion : ProtoVer
  deriving DecidableEq, Repr

def Msg.alloc : Msg := ⟨[], [], .none, 0, none, 0, 0⟩

-- named, so that a literal of a two-bit field is the same term in every module
instance neZeroFour : @NeZero ℕ Zero.ofOfNat0 4 := ⟨by decide⟩

structure FixedHeader where
  retain : Bool
  qos : Fin 4
  dup : Bool
  packetType : PacketType
  remainLen : ℕ
  deriving DecidableEq, Repr

/-- The bit fields of `struct fixed_header` as they lie over the first header byte. -/
def FixedHeader.ofByte (b : UInt8) : FixedHeader where
  retain := b.toNat % 2 = 1
  qos := Fin.ofNat 4 (b.toNat / 2)
  dup := b.toNat / 8 % 2 = 1
  packetType := Fin.ofNat 16 (b.toNat / 16)
  remainLen := 0

def FixedHeader.toByte (h : FixedHeader) : UInt8 :=
  UInt8.ofNat (h.packetType * 16 + h.dup.toNat * 8 + h.qos * 2 + h.retain.toNat)

def Msg.getType (m : Msg) : PacketType := (FixedHeader.ofByte (m.header.headD 0)).packetType

structure PubPacket where
  fixedHeader : FixedHeader
  packetId : UInt16
  topicBody : Option Bytes
  topicLen : ℕ
  properties : Option PropertyList
  propLen : ℕ
  ackReason : ReasonCode
  payloadData : Option Bytes
  payloadLen : ℕ
  deriving DecidableEq, Repr

def PubPacket.zalloc : PubPacket := ⟨⟨false, 0, false, 0, 0⟩, 0, none, 0, none, 0, 0, none, 0⟩

theorem FixedHeader.ofByte_toByte (h : FixedHeader) :
    FixedHeader.ofByte h.toByte = { h with remainLen := 0 } := by
  obtain ⟨r, q, d, t, n⟩ := h
  have hbits : ∀ (r d : Bool) (q : Fin 4) (t : Fin 16),
      FixedHeader.ofByte (FixedHeader.toByte ⟨r, q, d, t, 0⟩) = ⟨r, q, d, t, 0⟩ := by decide
  exact hbits r d q t

end NanoMQ
