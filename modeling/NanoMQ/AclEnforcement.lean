import NanoMQ.PubOutcome
import NanoMQ.Quiet
import NanoMQ.Reference

/-!
# Is a denial enforced?

`handle_pub` reports a denied topic by a reason code, and `server_cb` goes by whether the code is
`SUCCESS`. With the deny action `ignore` the code is `BANNED`: the work closes and nothing of the
message is seen. With `disconnect` it is `NORMAL_DISCONNECTION`, which has the value of `SUCCESS`:
the work goes on as if the message had been accepted, and never closes.
-/

namespace NanoMQ

open ByteBuffer

/-- A work of the broker is about to take up a PUBLISH whose topic, after the alias is resolved as
in `t`, the access control denies. -/
structure DeniedPublish (nng : Nng) (conf : Conf) (env : StepEnv) (s : Sys) (m : Msg)
    (t : PubState) : Prop where
  state : s.work.state = .recv
  broker : s.work.proto = .mqttBroker
  result : env.result = .ok
  msg : env.msg = some m
  publish : m.cmdType = .publish
  resolved : resolve nng conf env.pub (protoverOf m.connParam) false
    (pubStart s.store (s.work.loadPublish m)) = (none, t)
  denied : aclDenies nng conf m.connParam t.topic = true

/-- Nothing of the message is seen until the work is back in RECV, and it passes through CLOSE if
that is the configured action. -/
structure Enforced (nng : Nng) (conf : Conf) (h : SubHandlers) (env : StepEnv) (s : Sys) :
    Prop where
  quiet : ∀ envs, NoEffect s (runToRecv nng conf h envs (serverCb nng conf h env s))
  closes : conf.aclDenyAction = .disconnect →
    ∃ envs, (runToRecv nng conf h envs (serverCb nng conf h env s)).work.state = .close

section Enforcement

variable {nng : Nng} {conf : Conf} {h : SubHandlers} {env : StepEnv} {s : Sys} {m : Msg}

theorem serverCb_publish (hstate : s.work.state = .recv) (hbroker : s.work.proto = .mqttBroker)
    (hres : env.result = .ok) (hmsg : env.msg = some m) (hpub : m.cmdType = .publish) :
    serverCb nng conf h env s = recvPublishStep nng conf env m s := by
  have hacc : accepted env.result s.work env.msg = some m := by
    rw [accepted, if_pos (Or.inl hres), hmsg]
  rw [serverCb_recv hstate hacc (takeMsg_broker nng conf env.result hbroker m), recvMsg, hpub]

variable {t : PubState} (hd : DeniedPublish nng conf env s m t)

include hd

theorem DeniedPublish.serverCb_eq :
    serverCb nng conf h env s =
      afterPublish ⟨{ t.work with code := denyCode conf }, t.store,
        s.log ++ t.actions.map .table⟩ := by
  have hframe := frame_of_resolve hd.resolved
  have hcp : t.work.cparam = m.connParam := by rw [hframe.work]; rfl
  have hrefused : AclRefuses nng conf false t := ⟨rfl, by rw [hcp]; exact hd.denied⟩
  rw [serverCb_publish hd.state hd.broker hd.result hd.msg hd.publish,
    recvPublishStep_eq (handlePub_of_refused hd.resolved hrefused)]

theorem DeniedPublish.proto_eq : t.work.proto = .mqttBroker := by
  rw [(frame_of_resolve hd.resolved).work]
  exact hd.broker

theorem DeniedPublish.serverCb_eq_close (haction : conf.aclDenyAction ≠ .disconnect) :
    serverCb nng conf h env s =
      ⟨{ t.work with
          code := ReasonCode.banned, state := .close, pubPacket := none, msgInfos := [] },
        t.store, s.log ++ t.actions.map .table⟩ := by
  have hcode : denyCode conf = ReasonCode.banned := if_neg haction
  rw [hd.serverCb_eq, hcode, afterPublish]
  dsimp only
  rw [hd.proto_eq]
  rfl

theorem DeniedPublish.serverCb_eq_wait (haction : conf.aclDenyAction = .disconnect) :
    serverCb nng conf h env s =
      ⟨{ t.work with code := ReasonCode.success, state := .wait }, t.store,
        s.log ++ t.actions.map .table⟩ := by
  have hcode : denyCode conf = ReasonCode.success := if_pos haction
  rw [hd.serverCb_eq, hcode, afterPublish]
  dsimp only
  rw [hd.proto_eq]
  rfl

/-- Closing shows nothing of the message. -/
theorem DeniedPublish.quiet (haction : conf.aclDenyAction ≠ .disconnect) (envs : List StepEnv) :
    NoEffect s (runToRecv nng conf h envs (serverCb nng conf h env s)) := by
  rw [hd.serverCb_eq_close haction]
  apply (NoEffect.of_frame (frame_of_resolve hd.resolved) _).trans
  generalize hs' : Sys.mk _ _ _ = s'
  have hstate : s'.work.state = .close := by rw [← hs']
  have hactive : s'.work.state ≠ .recv := by
    rw [hstate]
    decide
  rcases runToRecv_cases nng conf h hactive envs with hstop | ⟨e, es, hgo⟩
  · rw [hstop]
    exact NoEffect.refl s'
  · have hclose : serverCb nng conf h e s' = closeStep nng s' := by rw [serverCb, hstate]
    rw [hgo, hclose, runToRecv_of_recv rfl]
    exact ⟨⟨[_], rfl, by simp [Effect.shows]⟩, rfl⟩

omit hd in
/-- From WAIT the work never comes to close. -/
theorem runToRecv_wait_ne_close (envs : List StepEnv) (hs : s.work.state = .wait) :
    (runToRecv nng conf h envs s).work.state ≠ .close := by
  have hinv : (runToRecv nng conf h envs s).work.state ∈ [WorkState.wait, .send, .recv] := by
    apply runToRecv_invariant (I := fun s => s.work.state ∈ [WorkState.wait, .send, .recv])
    · intro env s hactive hmem
      cases hstate : s.work.state <;> rw [hstate] at hmem
      case wait =>
        rw [serverCb, hstate]
        exact state_waitStep nng conf env hstate
      case send =>
        rw [serverCb, hstate]
        exact List.mem_cons_of_mem _ (List.mem_cons_of_mem _ List.mem_cons_self)
      case recv => exact absurd hstate hactive
      all_goals simp at hmem
    · rw [hs]
      exact List.mem_cons_self
  intro hclose
  rw [hclose] at hinv
  simp at hinv

end Enforcement

/-- A denial is enforced exactly when the configured action is not to disconnect. -/
theorem denial_enforced_iff {nng : Nng} {conf : Conf} (h : SubHandlers) {env : StepEnv} {s : Sys}
    {m : Msg} {t : PubState} (hd : DeniedPublish nng conf env s m t) :
    Enforced nng conf h env s ↔ conf.aclDenyAction ≠ .disconnect := by
  constructor
  · intro henf haction
    obtain ⟨envs, hclose⟩ := henf.closes haction
    rw [hd.serverCb_eq_wait haction] at hclose
    exact runToRecv_wait_ne_close envs rfl hclose
  · intro haction
    exact ⟨hd.quiet haction, fun hdisc => absurd hdisc haction⟩

def denyingConf (action : AclDenyAction) : Conf :=
  { Conf.bare with
    aclEnable := true, aclNomatch := .deny, aclDenyAction := action
    bridgeMode := true
    bridgeNodes := [⟨true, ProtoVer.v311, [⟨ascii "#", none, none, none, none, none⟩], [], false⟩]
    webHookEnable := true, webHookRules := [⟨.messagePublish, none⟩] }

theorem deniedPublish_simple (action : AclDenyAction) :
    let env := StepEnv.receive (simplePublish (ascii "a"))
    DeniedPublish Nng.reference (denyingConf action) env (Sys.ready .mqttBroker)
      (simplePublish (ascii "a"))
      (resolve Nng.reference (denyingConf action) env.pub ProtoVer.v311 false
        (pubStart Store.empty ((Sys.ready .mqttBroker).work.loadPublish
          (simplePublish (ascii "a"))))).2 := by
  refine ⟨rfl, rfl, rfl, rfl, rfl, Prod.ext ?_ rfl, ?_⟩ <;> cases action <;> decide

theorem ignored_denial_enforced :
    Enforced Nng.reference (denyingConf .ignore) SubHandlers.idle
      (StepEnv.receive (simplePublish (ascii "a"))) (Sys.ready .mqttBroker) :=
  (denial_enforced_iff SubHandlers.idle (deniedPublish_simple .ignore)).mpr (by decide)

/-- The work of a client to be disconnected waits instead of closing, and the message that was
denied is bridged and reported. -/
theorem disconnect_denial_not_enforced :
    let env := StepEnv.receive (simplePublish (ascii "a"))
    let s := serverCb Nng.reference (denyingConf .disconnect) SubHandlers.idle env
      (Sys.ready .mqttBroker)
    s.work.state = .wait ∧
      (runToRecv Nng.reference (denyingConf .disconnect) SubHandlers.idle [env, env] s).log =
        [.bridgeForward ⟨0, some (ascii "a"), none, 0, false, 0, false, none⟩,
          .webhook .messagePublish] ∧
      ¬ Enforced Nng.reference (denyingConf .disconnect) SubHandlers.idle env
        (Sys.ready .mqttBroker) := by
  intro env s
  have hlog : (runToRecv Nng.reference (denyingConf .disconnect) SubHandlers.idle
      [env, env] s).log = [.bridgeForward ⟨0, some (ascii "a"), none, 0, false, 0, false, none⟩,
        .webhook .messagePublish] := by decide
  refine ⟨by decide, hlog, fun henf => ?_⟩
  obtain ⟨es, hes, hno⟩ := (henf.quiet [env, env]).log
  obtain rfl : es = _ := hes.symm.trans hlog
  cases hno (.webhook .messagePublish) (List.mem_cons_of_mem _ List.mem_cons_self)

end NanoMQ
