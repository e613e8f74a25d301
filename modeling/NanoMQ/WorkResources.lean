import NanoMQ.CVector
import NanoMQ.OwnerSlot
import NanoMQ.WorkCode

/-!
# What a work of the broker allocates and releases

`server_cb` for a work of the broker, with the packet behind `work->pub_packet`, the vector behind
`pipe_ct->msg_infos` and the references to connection parameters that are released. What the packet
holds is left to `serverCb`, whose steps are taken along. It is a fault to use a packet or a vector
that was freed, to free it once more, and to allocate a packet while there is one. `auth_acl` takes
a reference of its own and releases it before it returns, and does not appear here.
-/

namespace NanoMQ

open ByteBuffer EarlyReturn

/-- What the outside decides before one step: the operation that has ended, the tables as the other
works have left them, and the allocator. -/
structure Wake where
  env : StepEnv
  store : Store
  /-- Whether a vector moves when it grows. -/
  moves : OwnedHeap (List ℕ) → ℕ → Bool
  /-- Whether a list without clients is `NULL`. -/
  emptyNull : Bool

/-- A work of the broker with its packets and vectors, and the connection parameters that it has
released so far. -/
structure WorkRes where
  sys : Sys
  packet : OwnerSlot Unit
  infos : OwnerSlot (List ℕ)
  released : List (Option ConnParam)

namespace WorkRes

def alloc : WorkRes := ⟨⟨Work.alloc .mqttBroker, Store.empty, []⟩, .null, .null, []⟩

def msgType (r : WorkRes) : PacketType := (r.sys.work.msg.getD Msg.alloc).getType

def allocPacket (r : WorkRes) : Option WorkRes :=
  (r.packet.create ()).map (fun p => { r with packet := p })

def usePacket (r : WorkRes) : Option WorkRes :=
  (r.packet.ptr.bind r.packet.heap.read).map (fun _ => r)

def usePacketIf (b : Bool) (r : WorkRes) : Option WorkRes := if b then r.usePacket else some r

/-- `free_pub_packet`, which is followed by `work->pub_packet = NULL` everywhere. -/
def freePacket (r : WorkRes) : Option WorkRes :=
  r.packet.releaseIf.map (fun p => { r with packet := p })

def useInfos (r : WorkRes) : Option WorkRes :=
  (CVector.elems r.infos.heap r.infos.ptr).map (fun _ => r)

/-- `cvector_free(msg_infos)`, which leaves the pointer as it is. -/
def freeInfos (r : WorkRes) : Option WorkRes :=
  (r.infos.heap.freeOpt r.infos.ptr).map (fun h => { r with infos := ⟨h, r.infos.ptr⟩ })

def clearInfos (r : WorkRes) : WorkRes := { r with infos := ⟨r.infos.heap, none⟩ }

def connParamFree (r : WorkRes) : WorkRes :=
  { r with released := r.released ++ [r.sys.work.cparam] }

section Steps

variable (nng : Nng) (conf : Conf) (junk : UInt8) (a : Wake)

def foreachClient (clients : List ℕ) (r : WorkRes) : Option WorkRes :=
  if clients = [] ∧ a.emptyNull = true then some r
  else
    (CVector.grow a.moves r.infos.heap r.infos.ptr).bind (fun g =>
      (CVector.pushAll a.moves (clients.filter (· ≠ 0)) g.1 g.2).map (fun g =>
        { r with infos := ⟨g.1, some g.2⟩ }))

/-- `handle_pub`. Every return with a code is before the subscribers are looked up. -/
def handlePub (proto : ProtoVer) (isEvent : Bool) (r : WorkRes) :
    Option (ReasonCode × WorkRes) := do
  let r ← r.clearInfos.allocPacket
  let out := Sys.handlePub nng conf a.env proto isEvent r.sys
  match resolve nng conf a.env.pub proto isEvent (pubStart r.sys.store r.sys.work) with
  | (some _, _) => some (out.1, { r with sys := out.2 })
  | (none, t) =>
      if AclRefuses nng conf isEvent t then some (out.1, { r with sys := out.2 })
      else do
        let r ← r.foreachClient a (nng.dbtreeFindClients t.store.db t.topic)
        let r ← r.foreachClient a (nng.dbtreeFindSharedClients t.store.db t.topic)
        some (out.1, { r with sys := out.2 })

/-- The loop over the retained messages, with a packet for each that is looked at. -/
def sendRetained (clock : ℕ) : List Msg → WorkRes → Option WorkRes
  | [], r => some r
  | m :: ms, r =>
      if checkMsgExp nng conf clock m (nng.publishProperty m) then do
        let r ← r.allocPacket
        let r ← r.freePacket
        let r ← r.freeInfos
        sendRetained clock ms r.clearInfos
      else some r

def msgRet (s : Sys) : List Msg :=
  let d := decodeSubMsg nng (s.work.msg.getD Msg.alloc) s.work.protoVer
  (subCtxHandle nng conf a.env.pub s.work.cparam s.work.pid d.packet s.store).2.msgRet

def recvSubscribe (r : WorkRes) : Option WorkRes :=
  let t := { r with sys := NanoMQ.recvSubscribe (brokerHandlers nng conf junk) a.env r.sys }
  if t.sys.work.code ≠ ReasonCode.success then some t.connParamFree
  else t.sendRetained nng conf a.env.pub.clock (msgRet nng conf a r.sys)

def recvUnsubscribe (r : WorkRes) : WorkRes :=
  { r with sys := NanoMQ.recvUnsubscribe (brokerHandlers nng conf junk) a.env r.sys }

/-- A PUBLISH. Where it fails, `msg_infos` is freed and not cleared. -/
def recvPublish (m : Msg) (r : WorkRes) : Option WorkRes := do
  let w := r.sys.work.loadPublish m
  let (code, r) ← handlePub nng conf a w.protoVer false { r with sys := { r.sys with work := w } }
  let t := { r with sys := afterPublish { r.sys with work := { r.sys.work with code := code } } }
  if code ≠ ReasonCode.success then do
    let t ← t.freePacket
    let t ← t.freeInfos
    some t.connParamFree
  else some t

def recvConnack (m : Msg) (r : WorkRes) : Option WorkRes := do
  let smsg := nng.nanoMsgNotify r.sys.work.cparam (byteAt m.body 1) 0 true
  let s := hookEntry nng conf (r.sys.emit [.reply r.sys.work.pid m])
  let s := { s with work := { s.work with msg := some smsg } }
  let (_, r) ← handlePub nng conf a ProtoVer.v311 true { r with sys := s }
  some { r with sys :=
    { r.sys with work := { r.sys.work with flag := .publish, state := .wait } } }

def recvDisconnect (m : Msg) (r : WorkRes) : Option WorkRes := do
  let s := hookEntry nng conf r.sys
  let s := { s with work := { s.work with msg := some { m with cmdType := .publish } } }
  let (_, r) ← handlePub nng conf a ProtoVer.v311 true { r with sys := s }
  let s : Sys := { r.sys with
    work := { r.sys.work with flag := .publish }
    store := (r.sys.store.destroySubClient r.sys.work.pid).delAtpairQueue r.sys.work.pid }
  if hasWill s.work.cparam then some { r with sys := s.goto .fin }
  else some { r with sys := s.goto .wait }.connParamFree

def recvMsg (m : Msg) (r : WorkRes) : Option WorkRes :=
  let r' := { r with sys := { r.sys with work := r.sys.work.load m } }
  match m.cmdType with
  | .subscribe => r'.recvSubscribe nng conf junk a
  | .unsubscribe => some (r'.recvUnsubscribe nng conf junk a)
  | .publish => r.recvPublish nng conf a m
  | .connack => r'.recvConnack nng conf a m
  | .disconnectEv => r'.recvDisconnect nng conf a m
  | _ => some { r' with sys := r'.sys.goto .wait }

def recv (r : WorkRes) : Option WorkRes :=
  match accepted a.env.result r.sys.work a.env.msg with
  | none => some r
  | some m => r.recvMsg nng conf junk a m

def wait (r : WorkRes) : Option WorkRes :=
  let t := { r with sys := waitStep nng conf a.env r.sys }
  if r.msgType ≠ PacketType.publish then some t
  else if a.env.result ≠ .ok then some t
  else do
    let _ ← r.usePacket
    let _ ← r.useInfos
    if hooksOn conf then some t
    else do
      let t ← t.connParamFree.freePacket
      let t ← t.freeInfos
      some t.clearInfos

def sendReads (w : Work) : Bool :=
  w.flag = .publish &&
    (ruleEngineOn conf || conf.build.iceoryx && w.msg.isSome || conf.webHookEnable)

def send (r : WorkRes) : Option WorkRes := do
  let r ← r.usePacketIf (sendReads conf r.sys.work)
  let t := { r with sys := sendStep nng conf r.sys }
  let t ← t.freePacket
  let t ← t.freeInfos
  some t.clearInfos.connParamFree

def finReads (w : Work) : Bool :=
  w.msgInfos ≠ [] || w.flag = .publish && conf.webHookEnable

def finWill (r : WorkRes) : Option WorkRes :=
  match willMsg nng r.sys.work.cparam with
  | some m => do
      let (_, t) ← handlePub nng conf a (protoverOf r.sys.work.cparam) false
        { r with sys := r.sys.loadWill m }
      some { t with sys := t.sys.goto .wait }
  | none => some { r with sys := r.sys.goto .recv }.connParamFree

def fin (r : WorkRes) : Option WorkRes :=
  if r.msgType = PacketType.publish then do
    let r ← r.useInfos
    let r ← r.usePacketIf (finReads conf r.sys.work)
    let t := { r with sys := endEvent nng conf r.sys }
    let t ← t.freePacket
    let t ← t.freeInfos
    t.clearInfos.finWill nng conf a
  else some r

def serverCb (r : WorkRes) : Option WorkRes :=
  match r.sys.work.state with
  | .init => some { r with sys := r.sys.goto .recv }
  | .recv => r.recv nng conf junk a
  | .wait => r.wait nng conf a
  | .send => r.send nng conf
  | .fin => r.fin nng conf a
  | .close => some { r with sys := closeStep nng r.sys }
  | .hook => some { r with sys := r.sys.emit [.fatal] }

def wake (r : WorkRes) : Option WorkRes :=
  serverCb nng conf junk a { r with sys := { r.sys with store := a.store } }

end Steps

end WorkRes

/-- The header of a message has the type PUBLISH exactly if the message is one, or tells of a lost
connection. -/
def Msg.HeaderAgrees (m : Msg) : Prop :=
  m.getType = PacketType.publish ↔ m.cmdType = .publish ∨ m.cmdType = .disconnectEv

namespace WorkRes

inductive Reached (nng : Nng) (conf : Conf) (junk : UInt8) : WorkRes → Prop
  | alloc : Reached nng conf junk alloc
  | step {r r' : WorkRes} (a : Wake) (h : Reached nng conf junk r)
      (agrees : r.sys.work.state = .recv → ∀ m, a.env.msg = some m → m.HeaderAgrees)
      (next : r.wake nng conf junk a = some r') : Reached nng conf junk r'

end WorkRes

end NanoMQ
