import NanoMQ.Pending

/-!
# Messages that `handle_pub` refuses

A message of another source that `handle_pub` refuses is still pending. What WAIT and SEND do with
it depends on the packet that was left behind, and it goes unnoticed exactly when they are silent
about the topic in it.
-/

namespace NanoMQ

open ByteBuffer

section Later

variable {nng : Nng} {conf : Conf} {h : SubHandlers} {env : StepEnv} {s s₁ : Sys}
  {ver : ProtoVer} {pkt : PubPacket}

theorem Pending.goto (state : WorkState) (hp : Pending pkt s) : Pending pkt (s.goto state) :=
  ⟨hp.flag, hp.topicBody, hp.topicLen, hp.msgInfos⟩

theorem Pending.encodeAndDeliver (nng : Nng) (hp : Pending pkt s) :
    (encodeAndDeliver nng s).log = s.log ∧ (encodeAndDeliver nng s).store = s.store ∧
      Pending pkt (encodeAndDeliver nng s) := by
  have hpkt := packet_encodePubMessage nng (s.work.msg.getD Msg.alloc) s.work.packet
  have hbody := hpkt.topicBody
  have hlen := hpkt.topicLen
  unfold NanoMQ.encodeAndDeliver
  dsimp only
  split_ifs
  · refine ⟨?_, rfl, hp.flag, hbody.trans hp.topicBody, hlen.trans hp.topicLen, hp.msgInfos⟩
    change s.log ++ s.work.msgInfos.map _ = s.log
    rw [hp.msgInfos, List.map_nil, List.append_nil]
  · exact ⟨rfl, rfl, hp.flag, hbody.trans hp.topicBody, hlen.trans hp.topicLen, hp.msgInfos⟩

theorem SilentForward.congr {pkt' : PubPacket} (hbody : pkt'.topicBody = pkt.topicBody)
    (hlen : pkt'.topicLen = pkt.topicLen) (hs : SilentForward nng conf pkt') :
    SilentForward nng conf pkt := by
  have hsys : pkt'.startsSys = pkt.startsSys := by rw [PubPacket.startsSys, hbody]; rfl
  have hno : ∀ nodes, NoForward nng pkt' nodes = NoForward nng pkt nodes := by
    intro nodes
    rw [NoForward, hbody]
    rfl
  obtain ⟨hb, ha, hn⟩ := hs
  rw [hlen, hsys, hno] at hb
  rw [hno] at ha
  rw [hlen, hsys, hbody] at hn
  exact ⟨hb, ha, hn⟩

theorem Pending.forwarded (nng : Nng) (conf : Conf) (env : StepEnv) (hp : Pending pkt s) :
    let s' := forwardAll nng conf env (NanoMQ.encodeAndDeliver nng s)
    Pending pkt s' ∧ s'.store = s.store ∧ (∃ es, s'.log = s.log ++ es) ∧
      (NoEffect s s' ↔ SilentForward nng conf pkt) := by
  obtain ⟨hlog, hstore, hp'⟩ := hp.encodeAndDeliver nng
  have hnew : (forwardAll nng conf env (NanoMQ.encodeAndDeliver nng s)).log = s.log ++
      (bridgeEffects nng conf env (NanoMQ.encodeAndDeliver nng s).work ++
        nngEffects nng conf (NanoMQ.encodeAndDeliver nng s).work) := by
    rw [← hlog]
    rfl
  refine ⟨⟨hp'.flag, hp'.topicBody, hp'.topicLen, hp'.msgInfos⟩, hstore, ⟨_, hnew⟩, ?_⟩
  rw [NoEffect.iff_of_log hnew (congrArg Store.retained hstore), forwardEffects_silent_iff]
  exact ⟨SilentForward.congr hp'.topicBody hp'.topicLen,
    SilentForward.congr hp'.topicBody.symm hp'.topicLen.symm⟩

theorem Pending.sent (hp : Pending pkt s) :
    NoEffect s (sendStep nng conf s) ↔ SilentSend nng conf pkt.topicBody := by
  rw [NoEffect.iff_of_log (log_sendStep nng conf s) rfl, sendEffects_silent_iff hp.flag,
    hp.topicBody]

/-- A refused message of which nothing was seen, on its way through states that show nothing. -/
def StaysQuiet (nng : Nng) (conf : Conf) (pkt : PubPacket) (s₁ s : Sys) : Prop :=
  NoEffect s₁ s ∧ (s.work.state = .recv ∨ Pending pkt s ∧
    (s.work.state = .send ∨ s.work.state = .wait ∧ SilentForward nng conf pkt))

theorem StaysQuiet.step (hsend : SilentSend nng conf pkt.topicBody) (env : StepEnv)
    (hactive : s.work.state ≠ .recv) (hs : StaysQuiet nng conf pkt s₁ s) :
    StaysQuiet nng conf pkt s₁ (serverCb nng conf h env s) := by
  obtain ⟨hno, hrecv | ⟨hp, hstate | ⟨hstate, hfwd⟩⟩⟩ := hs
  · exact absurd hrecv hactive
  · rw [serverCb, hstate]
    exact ⟨hno.trans (hp.sent.mpr hsend), Or.inl rfl⟩
  · rw [serverCb, hstate]
    change StaysQuiet nng conf pkt s₁ (waitStep nng conf env s)
    by_cases htype : (s.work.msg.getD Msg.alloc).getType = PacketType.publish
    · by_cases hok : env.result = .ok
      · obtain ⟨hp', -, -, hsilent⟩ := hp.forwarded nng conf env
        have hno' := hno.trans (hsilent.mpr hfwd)
        rw [waitStep_ok htype hok]
        dsimp only
        split_ifs
        · exact ⟨hno'.of_same rfl rfl, Or.inr ⟨hp'.goto .send, Or.inl rfl⟩⟩
        · exact ⟨hno'.of_same rfl rfl, Or.inl rfl⟩
      · rw [waitStep, if_neg (not_not.mpr htype), if_pos hok]
        refine ⟨hno.trans ⟨⟨[.fatal], rfl, by simp [Effect.shows]⟩, rfl⟩, Or.inr ?_⟩
        exact ⟨⟨hp.flag, hp.topicBody, hp.topicLen, hp.msgInfos⟩, Or.inr ⟨hstate, hfwd⟩⟩
    · rw [waitStep, if_pos htype]
      exact ⟨hno.of_same rfl rfl, Or.inl rfl⟩

theorem silentSend_of_quiet (hstate : s.work.state = .send) (hp : Pending pkt s)
    (hno : NoEffect s₁ s) (hall : ∀ envs, NoEffect s₁ (runToRecv nng conf h envs s)) :
    SilentSend nng conf pkt.topicBody := by
  have hactive : s.work.state ≠ .recv := by
    rw [hstate]
    decide
  have hsent := hall [StepEnv.receive Msg.alloc]
  rw [runToRecv_cons hactive, serverCb, hstate] at hsent
  exact hp.sent.mp (hno.of_trans hsent (log_sendStep nng conf s) rfl)

/-- A work in WAIT that shows nothing from there on forwards nothing, and is silent in SEND. -/
theorem silent_of_quiet (hstate : s.work.state = .wait) (hp : Pending pkt s)
    (htype : (s.work.msg.getD Msg.alloc).getType = PacketType.publish) (hno : NoEffect s₁ s)
    (hall : ∀ envs, NoEffect s₁ (runToRecv nng conf h envs s)) :
    SilentSend nng conf pkt.topicBody ∧ SilentForward nng conf pkt := by
  have hactive : s.work.state ≠ .recv := by
    rw [hstate]
    decide
  have hwait : ∀ envs, runToRecv nng conf h (StepEnv.receive Msg.alloc :: envs) s =
      runToRecv nng conf h envs (waitStep nng conf (StepEnv.receive Msg.alloc) s) := by
    intro envs
    rw [runToRecv_cons hactive, serverCb, hstate]
  obtain ⟨hp', hstore, ⟨es, hlog⟩, hsilent⟩ :=
    hp.forwarded nng conf (StepEnv.receive Msg.alloc)
  rw [waitStep_ok htype rfl] at hwait
  generalize hs' : forwardAll nng conf (StepEnv.receive Msg.alloc)
    (NanoMQ.encodeAndDeliver nng s) = s' at hwait hp' hstore hlog hsilent
  have hno' : NoEffect s₁ s' := by
    have hfirst := hall [StepEnv.receive Msg.alloc]
    rw [hwait] at hfirst
    dsimp only at hfirst
    split_ifs at hfirst
    · exact hfirst.of_same rfl rfl
    · exact hfirst.of_same rfl rfl
  have hfwd : SilentForward nng conf pkt :=
    hsilent.mp (hno.of_trans hno' hlog (congrArg Store.retained hstore))
  refine ⟨?_, hfwd⟩
  cases hon : hooksOn conf with
  | true =>
    apply silentSend_of_quiet (h := h) rfl (hp'.goto .send) (hno'.of_same rfl rfl)
    intro envs
    have hlater := hall (StepEnv.receive Msg.alloc :: envs)
    rw [hwait, hon] at hlater
    exact hlater
  | false =>
    rw [hooksOn, Bool.or_eq_false_iff, Bool.or_eq_false_iff] at hon
    exact ⟨hon.1.2, fun hen => absurd (hon.1.1.symm.trans hen) Bool.false_ne_true⟩

end Later

/-- A message of another source, or a will, that `handle_pub` refuses goes unnoticed exactly when
SEND is silent about its topic and, for a will, WAIT forwards nothing under it. -/
theorem failed_publish_noEffect_iff {nng : Nng} (hnng : nng.ComposesPublish) {conf : Conf}
    (h : SubHandlers) {env : StepEnv} {s s₁ : Sys} {ver : ProtoVer}
    (henter : Enters nng conf env s s₁ ver)
    (hfail : (Sys.handlePub nng conf env ver false s₁).1 ≠ ReasonCode.success) :
    (∀ envs, NoEffect s₁ (runToRecv nng conf h envs (serverCb nng conf h env s))) ↔
      let pkt := seenPacket nng conf env.pub ver s₁.store s₁.work
      SilentSend nng conf pkt.topicBody ∧ (s.work.state = .fin → SilentForward nng conf pkt) := by
  obtain ⟨hno, hp, hstates⟩ := henter.pending h hnng hfail
  generalize seenPacket nng conf env.pub ver s₁.store s₁.work = pkt at hp ⊢
  dsimp only
  constructor
  · intro hall
    rcases hstates with ⟨hs, hsend⟩ | ⟨-, hwait, htype⟩
    · refine ⟨silentSend_of_quiet hsend hp hno hall, fun hfin => ?_⟩
      rw [hs] at hfin
      cases hfin
    · obtain ⟨hsilent, hfwd⟩ := silent_of_quiet hwait hp htype hno hall
      exact ⟨hsilent, fun _ => hfwd⟩
  · rintro ⟨hsend, hfwd⟩ envs
    have hquiet : StaysQuiet nng conf pkt s₁ (serverCb nng conf h env s) := by
      refine ⟨hno, Or.inr ⟨hp, ?_⟩⟩
      rcases hstates with ⟨-, hs₂⟩ | ⟨hs, hs₂, -⟩
      · exact Or.inl hs₂
      · exact Or.inr ⟨hs₂, hfwd hs⟩
    exact (runToRecv_invariant (fun env s hactive => StaysQuiet.step hsend env hactive) envs
      hquiet).1

/-- A publication of the HTTP server, in the frame of its parts: client `c` publishes under `+`. -/
def httpPublish : Msg :=
  { Msg.alloc with
    body := [0, 0, 0, 2, 0x30, 3] ++ [0, 0, 0, 3, 0, 1, 0x2b] ++ [0, 0, 0, 1, 0x63] ++ [4] }

def httpEntered : Sys :=
  { Sys.ready .httpServer with
    work := (Sys.ready .httpServer).work.loadPublish
      { decodeCommonMqttMsg httpPublish with cmdType := .publish } }

theorem httpPublish_enters (conf : Conf) :
    Enters Nng.reference conf (StepEnv.receive httpPublish) (Sys.ready .httpServer) httpEntered
      ProtoVer.v311 :=
  .received rfl (by decide) rfl rfl rfl

theorem httpPublish_unnoticed :
    (Sys.handlePub Nng.reference Conf.bare (StepEnv.receive httpPublish) ProtoVer.v311 false
        httpEntered).1 = ReasonCode.protocolError ∧
      ∀ envs, NoEffect httpEntered (runToRecv Nng.reference Conf.bare SubHandlers.idle envs
        (serverCb Nng.reference Conf.bare SubHandlers.idle (StepEnv.receive httpPublish)
          (Sys.ready .httpServer))) := by
  refine ⟨by decide, (failed_publish_noEffect_iff Reference.composesPublish SubHandlers.idle
    (httpPublish_enters Conf.bare) (by decide)).mpr ?_⟩
  refine ⟨⟨rfl, fun hen => ?_⟩, fun hfin => ?_⟩
  · cases hen
  · cases hfin

def noticingConf : Conf :=
  { Conf.bare with
    build := ⟨true, false, false, false⟩, ruleEngOption := 1
    aclEnable := true, aclNomatch := .deny
    webHookEnable := true, webHookRules := [⟨.messagePublish, none⟩]
    bridgeMode := true
    bridgeNodes := [⟨true, ProtoVer.v311, [⟨ascii "#", none, none, none, none, none⟩], [], false⟩] }

/-- A publication of the HTTP server that cannot be decoded reaches the rule engine and the hook. -/
theorem httpPublish_noticed :
    let env := StepEnv.receive httpPublish
    let s := serverCb Nng.reference noticingConf SubHandlers.idle env (Sys.ready .httpServer)
    s.work.code = ReasonCode.protocolError ∧
      (runToRecv Nng.reference noticingConf SubHandlers.idle [env] s).log =
        [.extraSend Msg.alloc, .ruleEngineInsert s.work.packet, .webhook .messagePublish] ∧
      ¬ ∀ envs, NoEffect httpEntered
        (runToRecv Nng.reference noticingConf SubHandlers.idle envs s) := by
  intro env s
  have hlog : (runToRecv Nng.reference noticingConf SubHandlers.idle [env] s).log =
      [.extraSend Msg.alloc, .ruleEngineInsert s.work.packet, .webhook .messagePublish] := by
    decide
  refine ⟨by decide, hlog, fun hall => ?_⟩
  obtain ⟨es, hes, hno⟩ := (hall [env]).log
  obtain rfl : es = _ := hes.symm.trans hlog
  cases hno _ (List.mem_cons_of_mem _ List.mem_cons_self)

-- A will that is denied is bridged, handed to the rule engine and reported all the same.
example :
    let param := { ConnParam.bare with
      willFlag := true, willTopic := some (ascii "a"), willMsg := some (ascii "x") }
    let work := { Work.alloc .mqttBroker with
      state := .fin, msg := some (simplePublish (ascii "e")), cparam := some param }
    let env := StepEnv.receive Msg.alloc
    let s := serverCb Nng.reference noticingConf SubHandlers.idle env ⟨work, Store.empty, []⟩
    (runToRecv Nng.reference noticingConf SubHandlers.idle [env, env] s).log =
      [.bridgeForward ⟨0, some (ascii "a"), some (ascii "x"), 1, false, 0, false, none⟩,
        .ruleEngineInsert s.work.packet, .webhook .messagePublish] := by
  decide

end NanoMQ
