import NanoMQ.Quiet
import NanoMQ.SeenPacket

/-!
# Messages of other sources

A message need not be a PUBLISH of a client: it may come from another source, or be the will of a
client that is gone. When `handle_pub` fails on such a message, the work is not closed. One from a
source goes on to SEND with the flag of a publication, and the code for a will is not looked at, so
that it goes on to WAIT.
-/

namespace NanoMQ

open ByteBuffer

/-- A step in which a work hands a message that is no PUBLISH of a client to `handle_pub`, with the
system at that moment and the protocol version. -/
inductive Enters (nng : Nng) (conf : Conf) (env : StepEnv) (s : Sys) : Sys → ProtoVer → Prop
  | received {raw m : Msg} {w : Work} (state : s.work.state = .recv)
      (source : s.work.proto ≠ .mqttBroker)
      (taken : accepted env.result s.work env.msg = some raw)
      (msg : takeMsg nng conf env.result s.work raw = some (w, m))
      (publish : m.cmdType = .publish) :
      Enters nng conf env s { s with work := w.loadPublish m } (protoverOf m.connParam)
  | will {m : Msg} (state : s.work.state = .fin) (source : s.work.proto ≠ .mqttBridge)
      (event : (s.work.msg.getD Msg.alloc).getType = PacketType.publish)
      (msg : willMsg nng s.work.cparam = some m) :
      Enters nng conf env s ((endEvent nng conf s).loadWill m) (protoverOf s.work.cparam)

/-- A work with a refused message still to go through WAIT or SEND, where it has nobody to deliver
to and shows the topic of the packet. -/
structure Pending (pkt : PubPacket) (s : Sys) : Prop where
  flag : s.work.flag = .publish
  topicBody : s.work.packet.topicBody = pkt.topicBody
  topicLen : s.work.packet.topicLen = pkt.topicLen
  msgInfos : s.work.msgInfos = []

section Step

variable {nng : Nng} {conf : Conf} {h : SubHandlers} {env : StepEnv} {s s₁ : Sys}
  {ver : ProtoVer} {pkt : PubPacket}

/-- A call that fails leaves what `resolve` made of it. -/
theorem failed_call {env : PubEnv} {st : Store} {w : Work}
    (hfail : (handlePub nng conf env ver false st w).1 ≠ ReasonCode.success) :
    ∃ c o t, handlePub nng conf env ver false st w = (c, t) ∧ c ≠ ReasonCode.success ∧
      resolve nng conf env ver false (pubStart st w) = (o, t) := by
  rcases handlePub_cases nng conf env ver false st w with
    ⟨c, t, hres, heq⟩ | ⟨t, hres, -, heq⟩ | ⟨t, hres, -, heq⟩
  · rw [heq] at hfail
    exact ⟨c, _, t, heq, hfail, hres⟩
  · rw [heq] at hfail
    exact ⟨_, _, t, heq, hfail, hres⟩
  · rw [heq] at hfail
    exact absurd rfl hfail

theorem cparam_endEvent (nng : Nng) (conf : Conf) (s : Sys) :
    (endEvent nng conf s).work.cparam = s.work.cparam := by
  unfold endEvent encodeAndDeliver
  dsimp only
  split_ifs <;> rfl

theorem pending_of_resolve {st : Store} {w : Work} {o : Option ReasonCode} {t : PubState}
    (hres : resolve nng conf env.pub ver false (pubStart st w) = (o, t))
    (hflag : w.flag = .publish) {s : Sys}
    (hs : s.work = { t.work with state := s.work.state, code := s.work.code }) :
    Pending (seenPacket nng conf env.pub ver st w) s := by
  have hpkt : s.work.packet = t.packet := by rw [hs]; rfl
  have hwork := (frame_of_resolve hres).work
  rw [← packet_resolve hres]
  refine ⟨?_, by rw [hpkt], by rw [hpkt], ?_⟩
  · rw [hs, hwork]
    exact hflag
  · rw [hs, hwork]
    rfl

/-- A refused message of a source goes to SEND, with an empty answer where one is due. -/
theorem afterPublish_failed (hsrc : s.work.proto ≠ .mqttBroker)
    (hcode : s.work.code ≠ ReasonCode.success) :
    ∃ es, afterPublish s = (s.emit es).goto .send ∧ ∀ e ∈ es, e.shows = false := by
  unfold afterPublish
  rw [if_neg hcode, if_pos hcode, if_pos hsrc]
  split_ifs
  · exact ⟨[.extraSend Msg.alloc], rfl, by simp [Effect.shows]⟩
  · exact ⟨[], by simp [Sys.emit], by simp⟩

/-- The step in which END publishes a will, by the call of `handle_pub` it makes. -/
theorem serverCb_will {m : Msg} {c : ReasonCode} {t : PubState} (h : SubHandlers)
    (hstate : s.work.state = .fin)
    (hevent : (s.work.msg.getD Msg.alloc).getType = PacketType.publish)
    (hmsg : willMsg nng s.work.cparam = some m)
    (hcall : handlePub nng conf env.pub (protoverOf s.work.cparam) false (endEvent nng conf s).store
      ((endEvent nng conf s).loadWill m).work = (c, t)) :
    serverCb nng conf h env s =
      Sys.goto .wait ⟨t.work, t.store, (endEvent nng conf s).log ++ t.actions.map .table⟩ := by
  have hcall' := Sys.handlePub_eq (s := (endEvent nng conf s).loadWill m) hcall
  rw [serverCb, hstate]
  change endStep nng conf env s = _
  rw [endStep, if_pos hevent]
  dsimp only
  rw [cparam_endEvent, hmsg]
  dsimp only
  rw [publishWill, cparam_endEvent, hcall']
  rfl

theorem getType_willMsg (hnng : nng.ComposesPublish) {cparam : Option ConnParam} {m : Msg}
    (hmsg : willMsg nng cparam = some m) : m.getType = PacketType.publish := by
  obtain ⟨param, -, hcompose⟩ := Option.bind_eq_some_iff.mp hmsg
  split_ifs at hcompose
  exact hnng _ _ _ _ _ _ m hcompose

/-- After the call nothing is seen yet, and the work is in SEND or, for a will, in WAIT. -/
theorem Enters.pending (h : SubHandlers) (hnng : nng.ComposesPublish)
    (henter : Enters nng conf env s s₁ ver)
    (hfail : (Sys.handlePub nng conf env ver false s₁).1 ≠ ReasonCode.success) :
    let s₂ := serverCb nng conf h env s
    NoEffect s₁ s₂ ∧ Pending (seenPacket nng conf env.pub ver s₁.store s₁.work) s₂ ∧
      (s.work.state = .recv ∧ s₂.work.state = .send ∨
        s.work.state = .fin ∧ s₂.work.state = .wait ∧
          (s₂.work.msg.getD Msg.alloc).getType = PacketType.publish) := by
  obtain ⟨c, o, t, hcall, hc, hres⟩ := failed_call hfail
  have hwork := (frame_of_resolve hres).work
  cases henter with
  | @received raw m w hstate hsrc hacc htake hpub =>
    have hstep : serverCb nng conf h env s =
        afterPublish ⟨{ t.work with code := c }, t.store, s.log ++ t.actions.map .table⟩ := by
      rw [serverCb_recv hstate hacc htake, recvMsg, hpub]
      exact recvPublishStep_eq hcall
    have hproto : t.work.proto ≠ .mqttBroker := by
      rw [hwork]
      change w.proto ≠ .mqttBroker
      rwa [takeMsg_proto htake]
    obtain ⟨es, hafter, hsilent⟩ := afterPublish_failed (s := ⟨{ t.work with code := c }, t.store,
      s.log ++ t.actions.map .table⟩) hproto hc
    rw [hstep, hafter]
    refine ⟨?_, pending_of_resolve hres hpub rfl, Or.inl ⟨hstate, rfl⟩⟩
    exact (NoEffect.of_frame (frame_of_resolve hres) _).trans ⟨⟨es, rfl, hsilent⟩, rfl⟩
  | @will m hstate hsrc hev hmsg =>
    rw [serverCb_will h hstate hev hmsg hcall]
    refine ⟨NoEffect.of_frame (frame_of_resolve hres) _, pending_of_resolve hres rfl rfl,
      Or.inr ⟨hstate, rfl, ?_⟩⟩
    change (t.work.msg.getD Msg.alloc).getType = _
    rw [hwork]
    exact getType_willMsg hnng hmsg

end Step

end NanoMQ
