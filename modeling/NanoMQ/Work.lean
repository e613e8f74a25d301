import NanoMQ.EncodePub

/-!
# Works and the broker's tables

A work is one context of the broker with the message it is busy with. The tables are shared by all
works: the subscriptions, the topic aliases of each connection and the retained messages.
-/

namespace NanoMQ

open ByteBuffer

inductive Proto
  | mqttBroker | mqttBridge | awsBridge | httpServer | iceoryxBridge | nngBridge
  deriving DecidableEq, Repr

inductive WorkState
  | init | recv | wait | send | hook | fin | close
  deriving DecidableEq, Repr

/-- `nano_work`. The state `END` is called `fin`; `msgInfos` holds the pipes of
`pipe_ct->msg_infos`. -/
structure Work where
  state : WorkState
  proto : Proto
  protoVer : ProtoVer
  flag : CmdType
  code : ReasonCode
  pid : ℕ
  msg : Option Msg
  nmsg : Option Msg
  cparam : Option ConnParam
  pubPacket : Option PubPacket
  msgInfos : List ℕ
  node : Option BridgeNode
  deriving DecidableEq, Repr

def Work.alloc (proto : Proto) : Work where
  state := .init
  proto := proto
  protoVer := 0
  flag := .none
  code := ReasonCode.success
  pid := 0
  msg := none
  nmsg := none
  cparam := none
  pubPacket := none
  msgInfos := []
  node := none

theorem Work.proto_alloc (proto : Proto) : (Work.alloc proto).proto = proto := rfl

/-- The packet behind the pointer, cleared where there is none. -/
def Work.packet (w : Work) : PubPacket := w.pubPacket.getD PubPacket.zalloc

def Work.load (w : Work) (m : Msg) : Work :=
  { w with
    msg := some m, pid := m.pipe, cparam := m.connParam, protoVer := protoverOf m.connParam
    flag := m.cmdType }

def Msg.stamp (m : Msg) (ver : ProtoVer) : Msg :=
  { m with cmdType := if ver = ProtoVer.v5 then .publishV5 else .publish }

def Work.loadPublish (w : Work) (m : Msg) : Work :=
  { w.load m with msg := some (m.stamp (protoverOf m.connParam)) }

structure Store where
  /-- `dbtree`: the registered pairs of a filter and a pipe. -/
  db : List (Bytes × ℕ)
  /-- `dbhash`: the filters recorded for a pipe, if it is known. -/
  dbhash : ℕ → Option (List Bytes)
  /-- `dbhash_*_atpair`: the topic of an alias on a pipe. -/
  atpairs : ℕ → UInt16 → Option Bytes
  dbRet : Bytes → Option Msg
  /-- The retained messages of the sqlite backend, with the version they were stored under. -/
  sqliteRet : Bytes → Option (Msg × ProtoVer)

def Store.empty : Store :=
  ⟨[], fun _ => none, fun _ _ => none, fun _ => none, fun _ => none⟩

def Store.insertAtpair (st : Store) (pid : ℕ) (a : UInt16) (topic : Bytes) : Store :=
  { st with atpairs := fun p b => if p = pid ∧ b = a then some topic else st.atpairs p b }

def Store.delAtpairQueue (st : Store) (pid : ℕ) : Store :=
  { st with atpairs := fun p b => if p = pid then none else st.atpairs p b }

/-- `destroy_sub_client`, for a pipe that `dbhash` knows: every recorded filter leaves the tree. -/
def Store.destroySubClient (st : Store) (pid : ℕ) : Store :=
  match st.dbhash pid with
  | none => st
  | some filters =>
      { st with
        db := st.db.filter (fun e => ¬ (e.2 = pid ∧ e.1 ∈ filters))
        dbhash := fun p => if p = pid then none else st.dbhash p }

def Store.setRet (st : Store) (topic : Bytes) (m : Option Msg) : Store :=
  { st with dbRet := fun t => if t = topic then m else st.dbRet t }

def Store.setSqliteRet (st : Store) (topic : Bytes) (m : Option (Msg × ProtoVer)) : Store :=
  { st with sqliteRet := fun t => if t = topic then m else st.sqliteRet t }

def Store.retained (st : Store) : (Bytes → Option Msg) × (Bytes → Option (Msg × ProtoVer)) :=
  (st.dbRet, st.sqliteRet)

inductive PubAction
  /-- `nmq_auth_http_sub_pub` on a topic queue, and whether it succeeded. -/
  | authHttp (queue : List Bytes) (granted : Bool)
  | insertAtpair (pid : ℕ) (a : UInt16) (topic : Bytes)
  | findClients (topic : Bytes)
  | findSharedClients (topic : Bytes)
  | setRetain (topic : Bytes)
  | deleteRetain (topic : Bytes)
  deriving DecidableEq, Repr

structure PubState where
  work : Work
  store : Store
  actions : List PubAction

def PubState.packet (s : PubState) : PubPacket := s.work.packet

def PubState.topic (s : PubState) : Bytes := cstr (s.packet.topicBody.getD [])

def PubState.setPacket (s : PubState) (pkt : PubPacket) : PubState :=
  { s with work := { s.work with pubPacket := some pkt } }

def PubState.act (s : PubState) (a : PubAction) : PubState :=
  { s with actions := s.actions ++ [a] }

@[simp] theorem PubState.packet_setPacket (s : PubState) (pkt : PubPacket) :
    (s.setPacket pkt).packet = pkt := rfl

structure PubEnv where
  /-- `topic_queue_init` fails although there is a topic. -/
  queueFails : Bool
  /-- `nmq_auth_http_sub_pub` returns zero. -/
  authGranted : Bool
  clock : ℕ
  deriving DecidableEq, Repr

end NanoMQ
