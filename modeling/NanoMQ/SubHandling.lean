import NanoMQ.Server
import NanoMQ.Suback
import NanoMQ.Unsub

/-!
# SUBSCRIBE and UNSUBSCRIBE in the state machine

`brokerHandlers` are the handlers that `server_cb` has for the two. After a SUBSCRIBE the retained
messages that `sub_ctx_handle` has collected are sent one by one, before the answer. The expiry of a
message is tested in the condition of that loop, and where the broker is built with sqlite the test
also lets go of a message that has expired.
-/

namespace NanoMQ

open ByteBuffer

def messageExpiryIntervalId : UInt8 := 0x02

def PropertyValue.asU32 : PropertyValue → UInt32
  | .u32 v => v
  | _ => 0

section Retained

variable (nng : Nng) (conf : Conf) (clock : ℕ) (ver : ProtoVer)

/-- The expiry interval that `check_msg_exp` finds, in the properties it is given or, when built
with sqlite, in those of the message. -/
def expiryInterval (m : Msg) (prop : Option PropertyList) : Option UInt32 :=
  let data := propertyGetValue prop messageExpiryIntervalId
  let data := if conf.build.sqlite ∧ data = none then
      propertyGetValue (nng.publishProperty m) messageExpiryIntervalId
    else data
  data.map PropertyValue.asU32

/-- `check_msg_exp`; the product with 1000 is one of 32 bits. -/
def checkMsgExp (m : Msg) (prop : Option PropertyList) : Bool :=
  if m.cmdType = .publishV5 then
    (expiryInterval nng conf m prop).all (fun u => clock ≤ m.timestamp + (u * 1000).toNat)
  else true

/-- The copy of a retained message that is sent to a subscriber, if it can be decoded and encoded
again in the version of the subscriber. -/
def retainCopy (m : Msg) : Option Msg :=
  let d := decodePubMessage nng m m.publishProtoVersion PubPacket.zalloc
  if d.code = ReasonCode.success then
    let e := encodePubMessage nng (m.stamp ver) d.packet PacketType.publish
    if e.ok then some e.msg else none
  else none

structure RetainSent where
  sent : List Msg
  freed : List ℕ
  deriving DecidableEq, Repr

def sendRetained : ℕ → List Msg → RetainSent
  | _, [] => ⟨[], []⟩
  | i, m :: ms =>
      if checkMsgExp nng conf clock m (nng.publishProperty m) then
        let r := sendRetained (i + 1) ms
        ⟨(retainCopy nng ver m).toList ++ r.sent, i :: r.freed⟩
      else ⟨[], if conf.build.sqlite then [i] else []⟩

end Retained

section Handlers

variable (nng : Nng) (conf : Conf) (junk : UInt8)

/-- A SUBSCRIBE that was decoded: the tables first, then the retained messages and the answer. A
code left from before closes the work without them. -/
def answerSub (env : StepEnv) (pkt : SubPacket) (s : Sys) : ReasonCode × Sys :=
  let r := subCtxHandle nng conf env.pub s.work.cparam s.work.pid pkt s.store
  let s := { s with store := r.2.store }
  if r.1 ≠ 0 ∨ s.work.code ≠ ReasonCode.success then (r.1, s)
  else
    let ack := encodeSubackMsg nng s.work.protoVer { pkt with node := r.2.nodes }
      (s.work.msg.getD Msg.alloc)
    let ret := sendRetained nng conf env.pub.clock s.work.protoVer 0 r.2.msgRet
    (0, s.emit (ret.sent.map (.deliver s.work.pid) ++
      [.reply s.work.pid { ack with cmdType := .suback }]))

def subscribeStep (env : StepEnv) (s : Sys) : ReasonCode × Sys :=
  let d := decodeSubMsg nng (s.work.msg.getD Msg.alloc) s.work.protoVer
  if d.code ≠ ReasonCode.success then (d.code, s) else answerSub nng conf env d.packet s

/-- The handling of an UNSUBSCRIBE, where `junk` is what memory holds that no one has written. -/
def unsubscribeStep (_ : StepEnv) (s : Sys) : Sys :=
  let m := s.work.msg.getD Msg.alloc
  let u := unsubscribe nng s.work.protoVer s.work.pid m s.store
  let body := u.reply.map (fun b => b.getD junk)
  { s with store := u.store }.emit
    [.reply s.work.pid { m with header := 0xb0 :: nng.putVarInteger body.length, body := body }]

def brokerHandlers : SubHandlers := ⟨subscribeStep nng conf, unsubscribeStep nng junk⟩

end Handlers

structure Intake where
  env : StepEnv
  work : Work
  msg : Msg
  broker : work.proto = .mqttBroker

namespace Intake

def ofMsg (m : Msg) (clock : ℕ) : Intake :=
  ⟨⟨.ok, none, ⟨false, true, clock⟩, fun _ _ => true⟩, Work.alloc .mqttBroker, m,
    Work.proto_alloc .mqttBroker⟩

section Run

variable (nng : Nng) (conf : Conf) (junk : UInt8) (st : Store) (x : Intake)

def stepEnv : StepEnv := { x.env with result := .ok, msg := some x.msg }

def start : Sys := ⟨{ x.work with state := .recv }, st, []⟩

def run : Sys := serverCb nng conf (brokerHandlers nng conf junk) x.stepEnv (x.start st)

def version : ProtoVer := protoverOf x.msg.connParam

def decodeSub : SubDecoded := decodeSubMsg nng x.msg x.version

def handleSub : ReasonCode × SubCtx :=
  subCtxHandle nng conf x.env.pub x.msg.connParam x.msg.pipe (x.decodeSub nng).packet st

end Run

variable {nng : Nng} {conf : Conf} {junk : UInt8} {st : Store} {x : Intake}

theorem run_eq (st : Store) (x : Intake) :
    x.run nng conf junk st =
      recvMsg nng conf (brokerHandlers nng conf junk) x.stepEnv x.msg (x.start st) := by
  have htake := takeMsg_broker nng conf x.stepEnv.result (w := (x.start st).work) x.broker x.msg
  exact serverCb_recv rfl (if_pos (Or.inl rfl)) htake

def loaded (st : Store) (x : Intake) : Sys :=
  { x.start st with work := (x.start st).work.load x.msg }

theorem run_subscribe (hk : x.msg.cmdType = .subscribe) :
    x.run nng conf junk st =
      recvSubscribe (brokerHandlers nng conf junk) x.stepEnv (x.loaded st) := by
  rw [x.run_eq, recvMsg, hk]
  rfl

theorem run_unsubscribe (hk : x.msg.cmdType = .unsubscribe) :
    x.run nng conf junk st =
      recvUnsubscribe (brokerHandlers nng conf junk) x.stepEnv (x.loaded st) := by
  rw [x.run_eq, recvMsg, hk]
  rfl

theorem run_disconnect (hk : x.msg.cmdType = .disconnectEv) :
    x.run nng conf junk st = recvDisconnect nng conf x.stepEnv x.msg (x.loaded st) := by
  rw [x.run_eq, recvMsg, hk]
  rfl

theorem subscribeStep_failed (h : (x.decodeSub nng).code ≠ ReasonCode.success) :
    subscribeStep nng conf x.stepEnv (x.loaded st) = ((x.decodeSub nng).code, x.loaded st) :=
  if_pos h

theorem subscribeStep_decoded (h : (x.decodeSub nng).code = ReasonCode.success) :
    subscribeStep nng conf x.stepEnv (x.loaded st) =
      answerSub nng conf x.stepEnv (x.decodeSub nng).packet (x.loaded st) :=
  if_neg (not_not.mpr h)

theorem store_answerSub (env : StepEnv) (pkt : SubPacket) (s : Sys) :
    (answerSub nng conf env pkt s).2.store =
      (subCtxHandle nng conf env.pub s.work.cparam s.work.pid pkt s.store).2.store := by
  unfold answerSub
  dsimp only
  split_ifs <;> rfl

/-- Answering a SUBSCRIBE changes the tables and the log only. -/
theorem work_answerSub (env : StepEnv) (pkt : SubPacket) (s : Sys) :
    (answerSub nng conf env pkt s).2.work = s.work := by
  unfold answerSub
  dsimp only
  split_ifs <;> rfl

theorem answerSub_handled (hrv : (x.handleSub nng conf st).1 = 0)
    (hcode : x.work.code = ReasonCode.success) :
    ∃ ack, answerSub nng conf x.stepEnv (x.decodeSub nng).packet (x.loaded st) =
      (0, { x.loaded st with
        store := (x.handleSub nng conf st).2.store
        log := (sendRetained nng conf x.env.pub.clock x.version 0
          (x.handleSub nng conf st).2.msgRet).sent.map (.deliver x.msg.pipe) ++
            [.reply x.msg.pipe ack] }) := by
  have hgo : ¬ ((x.handleSub nng conf st).1 ≠ 0 ∨ x.work.code ≠ ReasonCode.success) :=
    not_or.mpr ⟨not_not.mpr hrv, not_not.mpr hcode⟩
  exact ⟨{ encodeSubackMsg nng x.version
    { (x.decodeSub nng).packet with node := (x.handleSub nng conf st).2.nodes } x.msg with
    cmdType := .suback }, if_neg hgo⟩

theorem store_recvSubscribe (h : SubHandlers) (env : StepEnv) (s : Sys) :
    (recvSubscribe h env s).store = (h.subscribe env s).2.store := by
  unfold recvSubscribe
  dsimp only
  split_ifs <;> rfl

theorem log_recvSubscribe (h : SubHandlers) (env : StepEnv) (s : Sys) :
    (recvSubscribe h env s).log = (h.subscribe env s).2.log := by
  unfold recvSubscribe
  dsimp only
  split_ifs <;> rfl

/-- A SUBSCRIBE that is not decoded changes nothing. -/
theorem store_run_failed (hk : x.msg.cmdType = .subscribe)
    (h : (x.decodeSub nng).code ≠ ReasonCode.success) : (x.run nng conf junk st).store = st := by
  rw [run_subscribe hk, store_recvSubscribe]
  change (subscribeStep nng conf x.stepEnv (x.loaded st)).2.store = st
  rw [subscribeStep_failed h]
  rfl

theorem store_run_subscribe (hk : x.msg.cmdType = .subscribe)
    (h : (x.decodeSub nng).code = ReasonCode.success) :
    (x.run nng conf junk st).store = (x.handleSub nng conf st).2.store := by
  rw [run_subscribe hk, store_recvSubscribe]
  change (subscribeStep nng conf x.stepEnv (x.loaded st)).2.store = _
  rw [subscribeStep_decoded h, store_answerSub]
  rfl

theorem store_run_unsubscribe (hk : x.msg.cmdType = .unsubscribe) :
    (x.run nng conf junk st).store =
      (unsubscribe nng x.version x.msg.pipe x.msg st).store := by
  rw [run_unsubscribe hk]
  rfl

end Intake

end NanoMQ
