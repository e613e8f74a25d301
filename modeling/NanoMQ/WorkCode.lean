import NanoMQ.PubOutcome
import NanoMQ.SubHandling

/-!
# The code of a work

`server_cb` leaves a code other than `SUCCESS` in a work of the broker only on the way to CLOSE,
which clears it. So a work that takes up a message has none left from the message before.
-/

namespace NanoMQ

open ByteBuffer

section Works

variable (nng : Nng) (conf : Conf) (junk : UInt8)

/-- A work of the broker as some run leaves it, whatever the other works do to the tables. -/
inductive BrokerWork : Work → Prop
  | alloc : BrokerWork (Work.alloc .mqttBroker)
  | step {w : Work} (env : StepEnv) (st : Store) (log : List Effect) (h : BrokerWork w) :
      BrokerWork (serverCb nng conf (brokerHandlers nng conf junk) env ⟨w, st, log⟩).work

end Works

section Code

variable {nng : Nng} {conf : Conf} {env : StepEnv} {s : Sys}

structure CodeClear (w : Work) : Prop where
  broker : w.proto = .mqttBroker
  code : w.state = .close ∨ w.code = ReasonCode.success

/-- A SUBSCRIBE goes to SEND or, with a code, to CLOSE. Nothing else of the work is changed but the
message. -/
theorem work_recvSubscribe (nng : Nng) (conf : Conf) (junk : UInt8) (env : StepEnv) (s : Sys) :
    let w := (recvSubscribe (brokerHandlers nng conf junk) env s).work
    w = { s.work with code := w.code, msg := w.msg, state := w.state } ∧
      (w.state = .close ∧ w.code ≠ ReasonCode.success ∨
        w.state = .send ∧ w.code = ReasonCode.success) := by
  have hwork : ((brokerHandlers nng conf junk).subscribe env s).2.work = s.work := by
    change (subscribeStep nng conf env s).2.work = s.work
    unfold subscribeStep
    dsimp only
    split_ifs
    · rfl
    · exact Intake.work_answerSub env _ s
  unfold recvSubscribe
  generalize (brokerHandlers nng conf junk).subscribe env s = x at hwork
  dsimp only
  rw [← hwork]
  split_ifs with _ hcode hcode
  · exact ⟨rfl, Or.inl ⟨rfl, hcode⟩⟩
  · exact ⟨rfl, Or.inr ⟨rfl, not_not.mp hcode⟩⟩
  · exact ⟨rfl, Or.inl ⟨rfl, hcode⟩⟩
  · exact ⟨rfl, Or.inr ⟨rfl, not_not.mp hcode⟩⟩

theorem codeClear_recvSubscribe (junk : UInt8) (env : StepEnv)
    (hproto : s.work.proto = .mqttBroker) :
    CodeClear (recvSubscribe (brokerHandlers nng conf junk) env s).work := by
  obtain ⟨hwork, hstate⟩ := work_recvSubscribe nng conf junk env s
  constructor
  · rw [hwork]
    exact hproto
  · rcases hstate with ⟨hclose, -⟩ | ⟨-, hcode⟩
    · exact Or.inl hclose
    · exact Or.inr hcode

theorem afterPublish_broker {s : Sys} (hproto : s.work.proto = .mqttBroker) :
    afterPublish s = if s.work.code ≠ ReasonCode.success then
      { s with work := { s.work with state := .close, pubPacket := none, msgInfos := [] } }
      else s.goto .wait := by
  unfold afterPublish
  rw [hproto, if_neg (by decide)]
  split_ifs with hcode hne
  · exact absurd rfl hne
  · rfl
  · rfl

theorem codeClear_afterPublish (hproto : s.work.proto = .mqttBroker) :
    CodeClear (afterPublish s).work := by
  rw [afterPublish_broker hproto]
  split_ifs with hcode
  · exact ⟨hproto, Or.inl rfl⟩
  · exact ⟨hproto, Or.inr (not_not.mp hcode)⟩

def Work.origin (w : Work) : ReasonCode × Proto := (w.code, w.proto)

theorem origin_handlePub (proto : ProtoVer) (isEvent : Bool) (s : Sys) :
    (Sys.handlePub nng conf env proto isEvent s).2.work.origin = s.work.origin := by
  change (NanoMQ.handlePub nng conf env.pub proto isEvent s.store s.work).2.work.origin = _
  rw [work_handlePub]
  rfl

theorem origin_encodeAndDeliver (s : Sys) :
    (encodeAndDeliver nng s).work.origin = s.work.origin := by
  unfold encodeAndDeliver
  dsimp only
  split_ifs <;> rfl

theorem origin_recvConnack (m : Msg) (s : Sys) :
    (recvConnack nng conf env m s).work.origin = s.work.origin := by
  unfold recvConnack
  refine (origin_handlePub ProtoVer.v311 true _).trans ?_
  dsimp only [hookEntry]
  split_ifs <;> rfl

theorem origin_recvDisconnect (m : Msg) (s : Sys) :
    (recvDisconnect nng conf env m s).work.origin = s.work.origin := by
  have hpub : ∀ s' : Sys, (Sys.handlePub nng conf env ProtoVer.v311 true s').2.work.origin =
      s'.work.origin := origin_handlePub ProtoVer.v311 true
  unfold recvDisconnect
  dsimp only
  split_ifs <;> exact hpub _

theorem origin_waitStep (s : Sys) : (waitStep nng conf env s).work.origin = s.work.origin := by
  have henc : (encodeAndDeliver nng s).work.origin = s.work.origin := origin_encodeAndDeliver s
  unfold waitStep
  dsimp only
  split_ifs
  · rfl
  · rfl
  · exact henc
  · exact henc

theorem origin_endEvent (s : Sys) : (endEvent nng conf s).work.origin = s.work.origin := by
  have henc : (encodeAndDeliver nng s).work.origin = s.work.origin := origin_encodeAndDeliver s
  unfold endEvent
  dsimp only
  split_ifs
  · rfl
  · exact henc

theorem origin_endStep (s : Sys) : (endStep nng conf env s).work.origin = s.work.origin := by
  have hevent : (endEvent nng conf s).work.origin = s.work.origin := origin_endEvent s
  unfold endStep
  split_ifs
  · dsimp only
    cases willMsg nng (endEvent nng conf s).work.cparam with
    | none => exact hevent
    | some m => exact (origin_handlePub _ false _).trans hevent
  · rfl

theorem CodeClear.keep {w w' : Work} (hw : CodeClear w) (hopen : w.state ≠ .close)
    (h : w'.origin = w.origin) : CodeClear w' :=
  ⟨(congrArg Prod.snd h).trans hw.broker,
    Or.inr ((congrArg Prod.fst h).trans (hw.code.resolve_left hopen))⟩

theorem codeClear_recvMsg (junk : UInt8) (m : Msg) (hclear : CodeClear s.work)
    (hopen : s.work.state ≠ .close) :
    CodeClear (recvMsg nng conf (brokerHandlers nng conf junk) env m s).work := by
  unfold recvMsg
  dsimp only
  split
  · exact codeClear_recvSubscribe junk env hclear.broker
  · exact hclear.keep hopen rfl
  · apply codeClear_afterPublish
    refine (congrArg Prod.snd (origin_handlePub _ false _)).trans ?_
    exact hclear.broker
  · exact hclear.keep hopen (origin_recvConnack m _)
  · exact hclear.keep hopen (origin_recvDisconnect m _)
  · exact hclear.keep hopen rfl

/-- A step leaves a code only in a work that it closes. -/
theorem codeClear_serverCb (junk : UInt8) (env : StepEnv) (hclear : CodeClear s.work) :
    CodeClear (serverCb nng conf (brokerHandlers nng conf junk) env s).work := by
  unfold serverCb
  cases hstate : s.work.state with
  | init => exact hclear.keep (by simp [hstate]) rfl
  | recv =>
    dsimp only
    unfold recvStep
    cases hacc : accepted env.result s.work env.msg with
    | none => exact hclear
    | some raw =>
      rw [Option.bind_some, takeMsg_broker nng conf env.result hclear.broker raw]
      exact codeClear_recvMsg junk raw hclear (by simp [hstate])
  | wait => exact hclear.keep (by simp [hstate]) (origin_waitStep s)
  | send => exact hclear.keep (by simp [hstate]) rfl
  | hook => exact hclear.keep (by simp [hstate]) rfl
  | fin => exact hclear.keep (by simp [hstate]) (origin_endStep s)
  | close => exact ⟨hclear.broker, Or.inr rfl⟩

theorem BrokerWork.codeClear {junk : UInt8} {w : Work} (h : BrokerWork nng conf junk w) :
    CodeClear w := by
  induction h with
  | alloc => exact ⟨rfl, Or.inr rfl⟩
  | step env st log _ ih => exact codeClear_serverCb junk env ih

end Code

end NanoMQ
