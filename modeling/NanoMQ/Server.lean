import NanoMQ.Cycle
import NanoMQ.Forward
import NanoMQ.Sources

/-!
# The state machine of a work

`serverCb` is `server_cb`: one step of a work, from the state it was left in. A PUBLISH enters in
RECV, is delivered and forwarded in WAIT and reported in SEND; CLOSE sends a DISCONNECT, and END
publishes the will of a client that is gone. Subscriptions are handled by functions that the machine
is given. What a step does to the outside is appended to a log.
-/

namespace NanoMQ

open ByteBuffer

inductive Effect
  /-- `nng_ctx_send` of a publication to a subscriber. -/
  | deliver (pid : ℕ) (m : Msg)
  /-- `nng_ctx_send` of an answer to the client itself. -/
  | reply (pid : ℕ) (m : Msg)
  /-- `nng_ctx_send` on the extra context of a source. -/
  | extraSend (m : Msg)
  | bridgeForward (f : ForwardMsg)
  | awsForward (f : ForwardMsg)
  | nngForward (b : Bytes)
  /-- `rule_engine_insert_sql` with the packet of the work. -/
  | ruleEngineInsert (pkt : PubPacket)
  | iceoryxSend (m : Msg)
  | webhook (event : WebhookEvent)
  /-- What `handle_pub` did to the tables. -/
  | table (a : PubAction)
  /-- `NANO_NNG_FATAL`, which ends the process. -/
  | fatal
  deriving DecidableEq, Repr

structure Sys where
  work : Work
  store : Store
  log : List Effect

def Sys.emit (s : Sys) (es : List Effect) : Sys := { s with log := s.log ++ es }

/-- What the outside decides before one step: how the last operation ended and what it brought. -/
structure StepEnv where
  result : AioResult
  msg : Option Msg
  pub : PubEnv
  loopOk : ℕ → Topics → Bool

structure SubHandlers where
  subscribe : StepEnv → Sys → ReasonCode × Sys
  unsubscribe : StepEnv → Sys → Sys

/-- Handlers that accept everything and register nothing. -/
def SubHandlers.idle : SubHandlers := ⟨fun _ s => (0, s), fun _ s => s⟩

def StepEnv.receive (m : Msg) : StepEnv := ⟨.ok, some m, ⟨false, true, 0⟩, fun _ _ => true⟩

def Sys.ready (proto : Proto) : Sys := ⟨{ Work.alloc proto with state := .recv }, Store.empty, []⟩

section Steps

variable (nng : Nng) (conf : Conf) (h : SubHandlers) (env : StepEnv)

def Sys.handlePub (proto : ProtoVer) (isEvent : Bool) (s : Sys) : ReasonCode × Sys :=
  let r := NanoMQ.handlePub nng conf env.pub proto isEvent s.store s.work
  (r.1, ⟨r.2.work, r.2.store, s.log ++ r.2.actions.map .table⟩)

def hookEntry (s : Sys) : Sys :=
  { s with
    work := { s.work with flag := hookFlag conf s.work.flag }
    log := s.log ++ ((hookEvent nng conf s.work).map Effect.webhook).toList }

def Sys.goto (state : WorkState) (s : Sys) : Sys :=
  { s with work := { s.work with state := state } }

def recvSubscribe (s : Sys) : Sys :=
  let (rv, s) := h.subscribe env s
  let s := if rv ≠ 0 then { s with work := { s.work with code := rv } } else s
  if s.work.code ≠ ReasonCode.success then s.goto .close
  else { s with work := { s.work with msg := none, state := .send } }

def recvUnsubscribe (s : Sys) : Sys :=
  let s := h.unsubscribe env s
  { s with work := { s.work with msg := none, state := .send } }

/-- Where a PUBLISH goes on, by its source and by the code of `handle_pub`. -/
def afterPublish (s : Sys) : Sys :=
  if s.work.proto = .httpServer ∨ s.work.proto = .awsBridge then
    (s.emit [.extraSend Msg.alloc]).goto
      (if s.work.code = ReasonCode.success then .wait else .send)
  else if s.work.code ≠ ReasonCode.success then
    if s.work.proto ≠ .mqttBroker then s.goto .send
    else { s with work := { s.work with state := .close, pubPacket := none, msgInfos := [] } }
  else s.goto .wait

def recvPublishStep (m : Msg) (s : Sys) : Sys :=
  let w := s.work.loadPublish m
  let (code, s) := Sys.handlePub nng conf env w.protoVer false { s with work := w }
  afterPublish { s with work := { s.work with code := code } }

def recvConnack (m : Msg) (s : Sys) : Sys :=
  let reason := byteAt m.body 1
  let broker := s.work.proto = .mqttBroker
  let s := if broker then s.emit [.reply s.work.pid m] else s
  let smsg := nng.nanoMsgNotify s.work.cparam reason (if broker then 0 else 1) true
  let s := hookEntry nng conf s
  let s := { s with work := { s.work with msg := some smsg } }
  let s := (Sys.handlePub nng conf env ProtoVer.v311 true s).2
  { s with work := { s.work with flag := .publish, state := .wait } }

def hasWill (cparam : Option ConnParam) : Bool :=
  cparam.any (fun c => c.willFlag && c.willTopic.isSome && c.willMsg.isSome)

def recvDisconnect (m : Msg) (s : Sys) : Sys :=
  let s := hookEntry nng conf s
  let s := { s with work := { s.work with msg := some { m with cmdType := .publish } } }
  let s := (Sys.handlePub nng conf env ProtoVer.v311 true s).2
  let s := { s with
    work := { s.work with flag := .publish }
    store := (s.store.destroySubClient s.work.pid).delAtpairQueue s.work.pid }
  if s.work.proto ≠ .mqttBridge ∧ hasWill s.work.cparam = true then s.goto .fin else s.goto .wait

def recvMsg (m : Msg) (s : Sys) : Sys :=
  let s' := { s with work := s.work.load m }
  match m.cmdType with
  | .subscribe => recvSubscribe h env s'
  | .unsubscribe => recvUnsubscribe h env s'
  | .publish => recvPublishStep nng conf env m s
  | .connack => recvConnack nng conf env m s'
  | .disconnectEv => recvDisconnect nng conf env m s'
  | _ => s'.goto .wait

def recvStep (s : Sys) : Sys :=
  match (accepted env.result s.work env.msg).bind (takeMsg nng conf env.result s.work) with
  | none => s
  | some (w, m) => recvMsg nng conf h env m { s with work := w }

/-- The sends of the loop over `msg_infos`, which leaves the last pipe in the work. -/
def deliverAll (m : Msg) (s : Sys) : Sys :=
  { s with
    work := { s.work with pid := s.work.msgInfos.getLastD s.work.pid }
    log := s.log ++ s.work.msgInfos.map (fun pid => .deliver pid m) }

def encodeAndDeliver (s : Sys) : Sys :=
  let e := encodePubMessage nng (s.work.msg.getD Msg.alloc) s.work.packet PacketType.publish
  let s := { s with work := { s.work with msg := some e.msg, pubPacket := some e.packet } }
  if e.ok then deliverAll e.msg s else s

def bridgeEffects (w : Work) : List Effect :=
  if conf.bridgeMode then
    (bridgePubHandler nng w conf).map .bridgeForward ++
      if conf.build.awsBridge then (awsBridgeForward nng w env.loopOk conf).map .awsForward else []
  else []

def nngEffects (w : Work) : List Effect :=
  if conf.nngPubEnable then (nngPubHandler nng w conf).map .nngForward else []

/-- Bridges first, then the NNG proxy, which lets go of its own message. -/
def forwardAll (s : Sys) : Sys :=
  { s.emit (bridgeEffects nng conf env s.work ++ nngEffects nng conf s.work) with
    work := { s.work with nmsg := if conf.nngPubEnable then none else s.work.nmsg } }

def ruleEngineOn : Bool := conf.build.ruleEngine && conf.ruleEngOption ≠ ruleEngOff

def ruleEngineEffects (w : Work) : List Effect :=
  if ruleEngineOn conf = true ∧ w.flag = .publish then [.ruleEngineInsert w.packet] else []

def iceoryxEffects (w : Work) : List Effect :=
  match w.msg with
  | none => []
  | some m =>
      if conf.build.iceoryx && w.flag = .publish && nanoIceoryxTopicFilter (ascii "ice/fwd")
          w.packet.topicBody w.packet.topicLen then [.iceoryxSend m] else []

def Sys.release (s : Sys) : Sys :=
  { s with work := { s.work with msg := none, pubPacket := none, msgInfos := [], state := .recv } }

def hooksOn : Bool := conf.webHookEnable || ruleEngineOn conf || conf.build.iceoryx

def waitStep (s : Sys) : Sys :=
  if (s.work.msg.getD Msg.alloc).getType ≠ PacketType.publish then
    { s with work := { s.work with msg := none, state := .recv } }
  else if env.result ≠ .ok then s.emit [.fatal]
  else
    let s := forwardAll nng conf env (encodeAndDeliver nng s)
    if hooksOn conf then s.goto .send else s.release

def sendStep (s : Sys) : Sys :=
  let s := s.emit (ruleEngineEffects conf s.work ++ iceoryxEffects conf s.work)
  let s := (hookEntry nng conf s).release
  { s with work := { s.work with flag := .none } }

def endEvent (s : Sys) : Sys :=
  let s := if s.work.msgInfos = [] then s else encodeAndDeliver nng s
  let s := hookEntry nng conf s
  { s with work := { s.work with msg := none, pubPacket := none, msgInfos := [] } }

def willMsg (cparam : Option ConnParam) : Option Msg :=
  cparam.bind (fun c =>
    if c.willFlag then
      nng.nanoEncodePublishMsg c.protover c.willQos c.willRetain (c.willMsg.getD [])
        c.willProperty (c.willTopic.getD [])
    else none)

def Sys.loadWill (m : Msg) (s : Sys) : Sys :=
  { s with work := { s.work with msg := some m, flag := .publish } }

/-- The second half of END: the will is published like a message of the client, and the code of
`handle_pub` is not looked at. -/
def publishWill (m : Msg) (s : Sys) : Sys :=
  (Sys.handlePub nng conf env (protoverOf s.work.cparam) false (s.loadWill m)).2.goto .wait

def endStep (s : Sys) : Sys :=
  if (s.work.msg.getD Msg.alloc).getType = PacketType.publish then
    let s := endEvent nng conf s
    match willMsg nng s.work.cparam with
    | some m => publishWill nng conf env m s
    | none => s.goto .recv
  else s

def closeStep (s : Sys) : Sys :=
  let smsg := nng.nanoDismsgComposer s.work.code
  { s with
    work := { s.work with msg := some smsg, code := ReasonCode.success, state := .recv }
    log := s.log ++ [.reply s.work.pid smsg] }

/-- One step of a work. The state HOOK has no case of its own. -/
def serverCb (s : Sys) : Sys :=
  match s.work.state with
  | .init => s.goto .recv
  | .recv => recvStep nng conf h env s
  | .wait => waitStep nng conf env s
  | .send => sendStep nng conf s
  | .fin => endStep nng conf env s
  | .close => closeStep nng s
  | .hook => s.emit [.fatal]

end Steps

section Calls

variable {nng : Nng} {conf : Conf} {env : StepEnv} {c : ReasonCode} {t : PubState} {s : Sys}

/-- A receive that is taken up leads to the dispatch of the message. -/
theorem serverCb_recv {h : SubHandlers} {w : Work} {raw m : Msg} (hstate : s.work.state = .recv)
    (hacc : accepted env.result s.work env.msg = some raw)
    (htake : takeMsg nng conf env.result s.work raw = some (w, m)) :
    serverCb nng conf h env s = recvMsg nng conf h env m { s with work := w } := by
  rw [serverCb, hstate]
  change recvStep nng conf h env s = _
  rw [recvStep, hacc, Option.bind_some, htake]

theorem Sys.handlePub_eq {proto : ProtoVer} {isEvent : Bool}
    (hcall : NanoMQ.handlePub nng conf env.pub proto isEvent s.store s.work = (c, t)) :
    Sys.handlePub nng conf env proto isEvent s =
      (c, ⟨t.work, t.store, s.log ++ t.actions.map .table⟩) := by
  rw [Sys.handlePub, hcall]

theorem recvPublishStep_eq {m : Msg}
    (hcall : NanoMQ.handlePub nng conf env.pub (protoverOf m.connParam) false s.store
      (s.work.loadPublish m) = (c, t)) :
    recvPublishStep nng conf env m s =
      afterPublish ⟨{ t.work with code := c }, t.store, s.log ++ t.actions.map .table⟩ := by
  have h : Sys.handlePub nng conf env (s.work.loadPublish m).protoVer false
      { s with work := s.work.loadPublish m } = _ := Sys.handlePub_eq hcall
  rw [recvPublishStep, h]

end Calls

/-- The work goes on, woken once for each entry, until it is back in RECV. -/
def runToRecv (nng : Nng) (conf : Conf) (h : SubHandlers) (envs : List StepEnv) (s : Sys) : Sys :=
  Cycle.settle (serverCb nng conf h) (fun s => s.work.state = .recv) envs s

section Run

variable {nng : Nng} {conf : Conf} {h : SubHandlers} {s : Sys}

theorem runToRecv_of_recv (hs : s.work.state = .recv) (envs : List StepEnv) :
    runToRecv nng conf h envs s = s := by
  apply Cycle.settle_of_rest
  exact decide_eq_true hs

theorem runToRecv_cons (hs : s.work.state ≠ .recv) (env : StepEnv) (envs : List StepEnv) :
    runToRecv nng conf h (env :: envs) s =
      runToRecv nng conf h envs (serverCb nng conf h env s) := by
  apply Cycle.settle_cons_of_active
  exact decide_eq_false hs

theorem runToRecv_cases (nng : Nng) (conf : Conf) (h : SubHandlers) (hs : s.work.state ≠ .recv)
    (envs : List StepEnv) :
    runToRecv nng conf h envs s = s ∨
      ∃ env envs', runToRecv nng conf h envs s =
        runToRecv nng conf h envs' (serverCb nng conf h env s) := by
  cases envs with
  | nil => exact Or.inl rfl
  | cons env envs => exact Or.inr ⟨env, envs, runToRecv_cons hs env envs⟩

theorem runToRecv_invariant {I : Sys → Prop}
    (hstep : ∀ env s, s.work.state ≠ .recv → I s → I (serverCb nng conf h env s))
    (envs : List StepEnv) (hs : I s) : I (runToRecv nng conf h envs s) :=
  Cycle.settle_invariant (fun env s hr => hstep env s (of_decide_eq_false hr)) envs hs

theorem waitStep_ok {env : StepEnv}
    (htype : (s.work.msg.getD Msg.alloc).getType = PacketType.publish) (hok : env.result = .ok) :
    waitStep nng conf env s =
      let s' := forwardAll nng conf env (encodeAndDeliver nng s)
      if hooksOn conf then s'.goto .send else s'.release := by
  rw [waitStep, if_neg (not_not.mpr htype), if_neg (not_not.mpr hok)]

/-- Where WAIT leads: back to RECV, on to SEND, or nowhere when the process ends. -/
theorem state_waitStep (nng : Nng) (conf : Conf) (env : StepEnv) (hs : s.work.state = .wait) :
    (waitStep nng conf env s).work.state ∈ [WorkState.wait, .send, .recv] := by
  unfold waitStep
  dsimp only
  split_ifs <;> simp [Sys.emit, Sys.goto, Sys.release, hs]

end Run

end NanoMQ
