import NanoMQ.DdsGateway
import NanoMQ.GuardedRun

/-!
# Routing to DDS

A message should be written to a writer of the topic that the forward table gives for it, and to
none if there is no such writer. The scan over the writers leaves `scli` as it was if it finds none,
and `scli` is never null: before the first message it is the last client that was to be made,
whether it was or not, and later the writer of an earlier message. All structures being known, a
writer is missing only if the DDS library refused it and `DDS_FATAL` returned; if it ends the
process, every message is routed right.
-/

namespace NanoMQ

open ByteBuffer GuardedRun

/-- A writer of the topic that the first entry of the table gives for an MQTT topic. -/
def RightWriter (d : DdsSetup) (topic : Bytes) (w : DdsSubcli) : Prop :=
  w ∈ d.writers.1 ∧ ∃ dt, findDdsTopic d.toDds topic = some dt ∧ w.ddssendTopic = some dt.toTopic

def TurnsTo (s : DdsLoop) (hd : Handle) : Prop :=
  s.ended = false ∧ s.handleq.contents.head? = some (some hd) ∧ hd.type = .toDds

/-- A turn writes its message to right writers only. -/
def TurnRight (d : DdsSetup) (s : DdsLoop) : GatewayEvent → Prop
  | .arrive _ => True
  | .turn rc => ∀ hd, TurnsTo s hd →
      ∃ s' sent, gatewayStep d s (.turn rc) = some s' ∧ s'.written = s.written ++ sent ∧
        ∀ x ∈ sent, x.hd = hd ∧ RightWriter d hd.topic x.scli

/-- The handlers of a client cannot convert the message, or the library refuses to write it. -/
def SendFails (d : DdsSetup) (rc : ℤ) (hd : Handle) (scli : DdsSubcli) : Prop :=
  ∃ handles, scli.handles = some handles ∧
    ((d.handlers handles).mqtt2dds hd.data = none ∨ scli.scli.isSome ∧ rc ≠ 0)

/-- There is a writer for the message of a turn, or it cannot be written through the client that
was used last. -/
def TurnHasWriter (d : DdsSetup) (s : DdsLoop) : GatewayEvent → Prop
  | .arrive _ => True
  | .turn rc => ∀ hd, TurnsTo s hd →
      (∃ w, RightWriter d hd.topic w) ∨ ∃ scli, s.scli = some scli ∧ SendFails d rc hd scli

def GatewayEvent.Listed (d : DdsSetup) : GatewayEvent → Prop
  | .arrive hd => hd.type = .toDds → (findDdsTopic d.toDds hd.topic).isSome
  | .turn _ => True

section Making

variable {getHandler : Bytes → Option ℕ} {isrd : Bool} {table : List DdsGatewayTopic}

/-- A client that could be made can send. -/
theorem ddsSubcliInit_ready {topic : Bytes} {answers : DdsAnswers}
    (h : (ddsSubcliInit getHandler isrd table topic answers).1 = 0) :
    (ddsSubcliInit getHandler isrd table topic answers).2.handles.isSome ∧
      (ddsSubcliInit getHandler isrd table topic answers).2.scli.isSome := by
  unfold ddsSubcliInit at h ⊢
  dsimp only at h ⊢
  generalize (if isrd = true then (⟨none, none, some topic, none⟩ : DdsSubcli)
    else ⟨none, some topic, none, none⟩) = scli at h ⊢
  split at h
  · cases h
  · split_ifs at h ⊢ with htopic hentity hmask
    · dsimp only at h
      omega
    · dsimp only at h
      omega
    · exact absurd h hmask.2
    · exact ⟨rfl, rfl⟩

theorem mem_makeSubclis {init : DdsGatewayTopic → DdsAnswers → ℤ × DdsSubcli} {w : DdsSubcli}
    {entries : List (DdsGatewayTopic × DdsAnswers)} {clis : List DdsSubcli}
    {scli : Option DdsSubcli} :
    w ∈ (makeSubclis init entries clis scli).1 ↔
      w ∈ clis ∨ ∃ e ∈ entries, (init e.1 e.2).1 = 0 ∧ w = (init e.1 e.2).2 := by
  induction entries generalizing clis scli with
  | nil => simp [makeSubclis]
  | cons e entries ih =>
    obtain ⟨t, answers⟩ := e
    have hfirst : w ∈ (if (init t answers).1 ≠ 0 then clis else clis ++ [(init t answers).2]) ↔
        w ∈ clis ∨ (init t answers).1 = 0 ∧ w = (init t answers).2 := by
      split_ifs with hfail
      · exact ⟨Or.inl, fun h => h.resolve_right fun hmade => hfail hmade.1⟩
      · rw [List.mem_append, List.mem_singleton, and_iff_right (not_not.mp hfail)]
    rw [makeSubclis, ih, hfirst, List.exists_mem_cons_iff, or_assoc]

theorem makeSubclis_last (init : DdsGatewayTopic → DdsAnswers → ℤ × DdsSubcli)
    {entries : List (DdsGatewayTopic × DdsAnswers)} {clis : List DdsSubcli}
    {scli : Option DdsSubcli} (h : entries ≠ [] ∨ scli.isSome) :
    (makeSubclis init entries clis scli).2.isSome := by
  induction entries generalizing clis scli with
  | nil => exact h.resolve_left (fun hne => hne rfl)
  | cons e entries ih => exact ih (Or.inr rfl)

end Making

theorem DdsSetup.writers_ready (d : DdsSetup) :
    ∀ w ∈ d.writers.1, w.handles.isSome ∧ w.scli.isSome := by
  intro w hw
  rcases mem_makeSubclis.mp hw with hnil | ⟨e, -, hinit, rfl⟩
  · cases hnil
  · exact ddsSubcliInit_ready hinit

theorem selectWriter_of_none {writers : List DdsSubcli} {topic : Bytes}
    (h : ∀ w ∈ writers, w.ddssendTopic ≠ some topic) (scli : Option DdsSubcli) :
    selectWriter writers topic scli = scli := by
  induction writers generalizing scli with
  | nil => rfl
  | cons w writers ih =>
    obtain ⟨hw, hrest⟩ := List.forall_mem_cons.mp h
    rw [selectWriter, List.foldl_cons, if_neg (fun heq => hw heq.symm)]
    exact ih hrest scli

/-- The scan keeps a writer of the topic once it has found one. -/
theorem selectWriter_kept {writers : List DdsSubcli} {topic : Bytes} {P : DdsSubcli → Prop}
    (hP : ∀ w ∈ writers, w.ddssendTopic = some topic → P w) {scli : Option DdsSubcli}
    (h : ∃ w, scli = some w ∧ P w) : ∃ w, selectWriter writers topic scli = some w ∧ P w := by
  induction writers generalizing scli with
  | nil => exact h
  | cons w writers ih =>
    obtain ⟨hw, hrest⟩ := List.forall_mem_cons.mp hP
    rw [selectWriter, List.foldl_cons]
    apply ih hrest
    split_ifs with heq
    · exact ⟨w, rfl, hw heq.symm⟩
    · exact h

theorem selectWriter_of_mem {writers : List DdsSubcli} {topic : Bytes} {P : DdsSubcli → Prop}
    (hP : ∀ w ∈ writers, w.ddssendTopic = some topic → P w) {w : DdsSubcli} (hw : w ∈ writers)
    (htopic : w.ddssendTopic = some topic) (scli : Option DdsSubcli) :
    ∃ w', selectWriter writers topic scli = some w' ∧ P w' := by
  obtain ⟨before, after, rfl⟩ := List.append_of_mem hw
  rw [selectWriter, List.foldl_append, List.foldl_cons, if_pos htopic.symm]
  apply selectWriter_kept
  · intro x hx
    exact hP x (List.mem_append_right before (List.mem_cons_of_mem w hx))
  · exact ⟨w, rfl, hP w hw htopic⟩

/-- What holds between two events: the queues are rings, the messages in the queue have topics of
the table, and `scli` is not null if there is a table at all. -/
structure LoopInv (d : DdsSetup) (s : DdsLoop) : Prop where
  handleq : s.handleq.Ring
  mqttq : s.mqttq.Ring
  listed : ∀ hd, some hd ∈ s.handleq.contents → hd.type = .toDds →
    (findDdsTopic d.toDds hd.topic).isSome
  scli : d.mqtt2dds ≠ [] → s.scli.isSome

section Turn

variable {d : DdsSetup} {s s' : DdsLoop} {rc : ℤ} {hd : Handle}

theorem ddsSubcliSend_cases {scli : DdsSubcli} (h : ddsSubcliSend d rc s scli hd = some s') :
    (SendFails d rc hd scli ∧ (rc = 0 → s'.ended = true) ∧
        ∃ ended, s' = { s with ended := ended }) ∨
      ¬ SendFails d rc hd scli ∧ ∃ handles sample, scli.handles = some handles ∧
        (d.handlers handles).mqtt2dds hd.data = some sample ∧
        s' = { s with written := s.written ++ [⟨scli, hd, sample⟩] } := by
  obtain ⟨handles, hhandles, h⟩ := Option.bind_eq_some_iff.mp h
  split at h
  next hnone =>
    obtain rfl := Option.some.inj h
    exact Or.inl ⟨⟨handles, hhandles, Or.inl hnone⟩, fun _ => rfl, true, rfl⟩
  next sample hsample =>
    obtain ⟨entity, hentity, h⟩ := Option.bind_eq_some_iff.mp h
    split_ifs at h with hrc
    · refine Or.inr ⟨?_, handles, sample, hhandles, hsample, (Option.some.inj h).symm⟩
      rintro ⟨handles', hhandles', hnone | ⟨-, hne⟩⟩
      · obtain rfl := Option.some.inj (hhandles.symm.trans hhandles')
        cases hsample.symm.trans hnone
      · exact hne hrc
    · refine Or.inl ⟨⟨handles, hhandles, Or.inr ⟨?_, hrc⟩⟩, fun hzero => absurd hzero hrc, _,
        (Option.some.inj h).symm⟩
      exact Option.isSome_of_eq_some hentity

theorem exists_ddsSubcliSend (s : DdsLoop) {scli : DdsSubcli}
    (h : SendFails d rc hd scli ∨ scli.handles.isSome ∧ scli.scli.isSome) :
    ∃ s', ddsSubcliSend d rc s scli hd = some s' := by
  have hhandles : scli.handles.isSome := by
    rcases h with ⟨handles, hhandles, -⟩ | ⟨hhandles, -⟩
    · exact Option.isSome_of_eq_some hhandles
    · exact hhandles
  obtain ⟨handles, hhandles⟩ := Option.isSome_iff_exists.mp hhandles
  rw [ddsSubcliSend, hhandles]
  dsimp only [Option.bind_eq_bind, Option.bind_some]
  split
  next => exact ⟨_, rfl⟩
  next sample hsample =>
    have hentity : scli.scli.isSome := by
      rcases h with ⟨handles', hhandles', hfails | ⟨hentity, -⟩⟩ | ⟨-, hentity⟩
      · obtain rfl := Option.some.inj (hhandles.symm.trans hhandles')
        cases hsample.symm.trans hfails
      · exact hentity
      · exact hentity
    obtain ⟨entity, hentity⟩ := Option.isSome_iff_exists.mp hentity
    rw [hentity, Option.bind_some]
    split_ifs <;> exact ⟨_, rfl⟩

/-- A message that has a writer is sent through one. -/
theorem handleToDds_of_writer (s : DdsLoop) (rc : ℤ) {w : DdsSubcli}
    (hw : RightWriter d hd.topic w) :
    ∃ w', RightWriter d hd.topic w' ∧
      handleToDds d rc s hd = ddsSubcliSend d rc { s with scli := some w' } w' hd := by
  obtain ⟨hmem, dt, hdt, htopic⟩ := hw
  obtain ⟨w', hselect, hw'⟩ := selectWriter_of_mem (P := RightWriter d hd.topic)
    (fun x hx hxtopic => ⟨hx, dt, hdt, hxtopic⟩) hmem htopic s.scli
  refine ⟨w', hw', ?_⟩
  rw [handleToDds, hdt, Option.bind_eq_bind, Option.bind_some, hselect]

/-- A message without a writer is sent through the client that `scli` happens to be. -/
theorem handleToDds_of_no_writer {dt : DdsGatewayTopic}
    (hdt : findDdsTopic d.toDds hd.topic = some dt) (hnone : ∀ w, ¬ RightWriter d hd.topic w)
    {scli : DdsSubcli} (hscli : s.scli = some scli) :
    handleToDds d rc s hd = ddsSubcliSend d rc s scli hd := by
  have hselect : selectWriter d.writers.1 dt.toTopic s.scli = some scli := by
    rw [selectWriter_of_none (fun w hw htopic => hnone w ⟨hw, dt, hdt, htopic⟩), hscli]
  rw [handleToDds, hdt, Option.bind_eq_bind, Option.bind_some, hselect]
  obtain ⟨handleq, mqttq, scli', written, ended⟩ := s
  obtain rfl : scli' = some scli := hscli
  rfl

theorem findDdsTopic_ne_nil {topic : Bytes} (h : (findDdsTopic d.toDds topic).isSome) :
    d.mqtt2dds ≠ [] := by
  intro hnil
  rw [DdsSetup.toDds, hnil] at h
  cases h

theorem handleToDds_through (rc : ℤ) (hscli : d.mqtt2dds ≠ [] → s.scli.isSome)
    (hlisted : (findDdsTopic d.toDds hd.topic).isSome) :
    ∃ scli, handleToDds d rc s hd = ddsSubcliSend d rc { s with scli := some scli } scli hd ∧
      (RightWriter d hd.topic scli ∨
        (∀ w, ¬ RightWriter d hd.topic w) ∧ s.scli = some scli) := by
  by_cases hw : ∃ w, RightWriter d hd.topic w
  · obtain ⟨w, hw⟩ := hw
    obtain ⟨w', hw', hsend⟩ := handleToDds_of_writer s rc hw
    exact ⟨w', hsend, Or.inl hw'⟩
  · rw [not_exists] at hw
    obtain ⟨dt, hdt⟩ := Option.isSome_iff_exists.mp hlisted
    obtain ⟨scli, hscli⟩ := Option.isSome_iff_exists.mp (hscli (findDdsTopic_ne_nil hlisted))
    refine ⟨scli, ?_, Or.inr ⟨hw, hscli⟩⟩
    rw [handleToDds_of_no_writer hdt hw hscli, ← hscli]

theorem gatewayStep_ended (h : s.ended = true) (e : GatewayEvent) :
    gatewayStep d s e = some s := by
  unfold gatewayStep
  exact if_pos h

theorem ddsClientWork_toDds (h : hd.type = .toDds) :
    ddsClientWork d rc s hd = handleToDds d rc s hd := by
  rw [ddsClientWork, h]

/-- The handle at the head of the queue is the one that a turn takes. -/
theorem gatewayStep_turn (rc : ℤ) (h : LoopInv d s) (hended : s.ended = false)
    {x : Option Handle} {rest : List (Option Handle)} (hcontents : s.handleq.contents = x :: rest) :
    ∃ handleq : NftpVec Handle, handleq.Ring ∧ handleq.contents = rest ∧
      gatewayStep d s (.turn rc) =
        x.elim (some { s with handleq := handleq })
          (fun hd => ddsClientWork d rc { s with handleq := handleq } hd) := by
  have hlen : s.handleq.len ≠ 0 := by
    rw [← h.handleq.length_contents, hcontents]
    exact Nat.succ_ne_zero _
  obtain ⟨y, handleq, hpop, hring, htake⟩ := nftpVecPop_head h.handleq hlen
  obtain ⟨rfl, hrest⟩ := List.cons.inj (hcontents.symm.trans htake)
  refine ⟨handleq, hring, hrest.symm, ?_⟩
  rw [gatewayStep, hended, if_neg Bool.false_ne_true]
  dsimp only
  rw [if_neg hlen, hpop]
  cases x <;> rfl

theorem turnRight_iff (h : LoopInv d s) :
    TurnRight d s (.turn rc) ↔ TurnHasWriter d s (.turn rc) := by
  apply forall_congr'
  intro hd
  apply imp_congr_right
  rintro ⟨hended, hhead, htype⟩
  obtain ⟨rest, hcontents⟩ : ∃ rest, s.handleq.contents = some hd :: rest :=
    List.head?_eq_some_iff.mp hhead
  obtain ⟨handleq, -, -, hturn⟩ := gatewayStep_turn rc h hended hcontents
  rw [Option.elim_some, ddsClientWork_toDds htype] at hturn
  have hlisted := h.listed hd (by rw [hcontents]; exact List.mem_cons_self) htype
  obtain ⟨scli, hsend, hscli⟩ := handleToDds_through (s := { s with handleq := handleq }) rc
    h.scli hlisted
  rw [hturn, hsend]
  constructor
  · rintro ⟨s', sent, hstep, hwritten, hsent⟩
    refine hscli.imp (fun hw => ⟨scli, hw⟩) ?_
    rintro ⟨hnone, hstale⟩
    refine ⟨scli, hstale, ?_⟩
    rcases ddsSubcliSend_cases hstep with ⟨hfails, -⟩ | ⟨-, handles, sample, -, -, rfl⟩
    · exact hfails
    · -- What is written is written to a client that is no right writer.
      obtain rfl : [⟨scli, hd, sample⟩] = sent := List.append_cancel_left hwritten
      exact absurd (hsent ⟨scli, hd, sample⟩ List.mem_cons_self).2 (hnone scli)
  · intro hhas
    have hsends : RightWriter d hd.topic scli ∨ SendFails d rc hd scli := by
      rcases hscli with hw | ⟨hnone, hstale⟩
      · exact Or.inl hw
      · rcases hhas with ⟨w, hw⟩ | ⟨scli', hstale', hfails⟩
        · exact absurd hw (hnone w)
        · obtain rfl := Option.some.inj (hstale.symm.trans hstale')
          exact Or.inr hfails
    obtain ⟨s', hstep⟩ := exists_ddsSubcliSend { s with handleq := handleq, scli := some scli }
      (hsends.symm.imp_right fun hw => d.writers_ready scli hw.1)
    rcases ddsSubcliSend_cases hstep with
      ⟨-, -, ended, rfl⟩ | ⟨hwrites, handles, sample, -, -, rfl⟩
    · exact ⟨_, [], hstep, (List.append_nil _).symm, fun x hx => by cases hx⟩
    · refine ⟨_, [⟨scli, hd, sample⟩], hstep, rfl, ?_⟩
      intro x hx
      obtain rfl := List.mem_singleton.mp hx
      exact ⟨rfl, hsends.resolve_right hwrites⟩

theorem LoopInv.arrive (h : LoopInv d s) (hlisted : (GatewayEvent.arrive hd).Listed d)
    (hstep : gatewayStep d s (.arrive hd) = some s') : LoopInv d s' := by
  by_cases hended : s.ended = true
  · rw [gatewayStep_ended hended] at hstep
    obtain rfl := Option.some.inj hstep
    exact h
  · rw [gatewayStep, if_neg hended] at hstep
    obtain ⟨rc, handleq, happend, hring, hcontents⟩ := exists_nftpVecAppend h.handleq (some hd)
    rw [happend] at hstep
    obtain rfl := Option.some.inj hstep
    refine ⟨hring, h.mqttq, ?_, h.scli⟩
    intro hd' hmem htype
    dsimp only at hmem
    rcases hcontents with ⟨-, hcontents⟩ | ⟨-, rfl⟩
    · rw [hcontents, List.mem_append, List.mem_singleton] at hmem
      rcases hmem with hmem | heq
      · exact h.listed hd' hmem htype
      · obtain rfl := Option.some.inj heq
        exact hlisted htype
    · exact h.listed hd' hmem htype

theorem LoopInv.handleToDds (h : LoopInv d s)
    (hlisted : (findDdsTopic d.toDds hd.topic).isSome)
    (hstep : NanoMQ.handleToDds d rc s hd = some s') : LoopInv d s' := by
  obtain ⟨scli, hsend, -⟩ := handleToDds_through rc h.scli hlisted
  rw [hsend] at hstep
  rcases ddsSubcliSend_cases hstep with ⟨-, -, ended, rfl⟩ | ⟨-, handles, sample, -, -, rfl⟩
  · exact ⟨h.handleq, h.mqttq, h.listed, fun _ => rfl⟩
  · exact ⟨h.handleq, h.mqttq, h.listed, fun _ => rfl⟩

theorem LoopInv.ddsClientWork (h : LoopInv d s)
    (hlisted : hd.type = .toDds → (findDdsTopic d.toDds hd.topic).isSome)
    (hstep : NanoMQ.ddsClientWork d rc s hd = some s') : LoopInv d s' := by
  rw [NanoMQ.ddsClientWork] at hstep
  split at hstep
  · exact h.handleToDds (hlisted ‹_›) hstep
  · obtain ⟨rc, mqttq, happend, hring, -⟩ := exists_nftpVecAppend h.mqttq (some hd)
    rw [happend] at hstep
    obtain rfl := Option.some.inj hstep
    exact ⟨h.handleq, hring, h.listed, h.scli⟩
  · obtain rfl := Option.some.inj hstep
    exact h

theorem LoopInv.turn (h : LoopInv d s) (hstep : gatewayStep d s (.turn rc) = some s') :
    LoopInv d s' := by
  cases hended : s.ended with
  | true =>
    rw [gatewayStep_ended hended] at hstep
    obtain rfl := Option.some.inj hstep
    exact h
  | false =>
    cases hcontents : s.handleq.contents with
    | nil =>
      have hlen : s.handleq.len = 0 := by
        rw [← h.handleq.length_contents, hcontents]
        rfl
      rw [gatewayStep, hended, if_neg Bool.false_ne_true] at hstep
      dsimp only at hstep
      rw [if_pos hlen] at hstep
      obtain rfl := Option.some.inj hstep
      exact h
    | cons x rest =>
      obtain ⟨handleq, hring, hrest, hturn⟩ := gatewayStep_turn rc h hended hcontents
      have hlisted : ∀ hd, some hd ∈ s.handleq.contents → hd.type = .toDds → _ := h.listed
      rw [hcontents] at hlisted
      have hnext : LoopInv d { s with handleq := handleq } := by
        refine ⟨hring, h.mqttq, ?_, h.scli⟩
        intro hd hmem
        rw [hrest] at hmem
        exact hlisted hd (List.mem_cons_of_mem x hmem)
      rw [hturn] at hstep
      cases x with
      | none =>
        obtain rfl := Option.some.inj hstep
        exact hnext
      | some hd => exact hnext.ddsClientWork (hlisted hd List.mem_cons_self) hstep

theorem LoopInv.step (h : LoopInv d s) {e : GatewayEvent} (hlisted : e.Listed d)
    (hstep : gatewayStep d s e = some s') : LoopInv d s' := by
  cases e with
  | arrive hd => exact h.arrive hlisted hstep
  | turn rc => exact h.turn hstep

theorem loopInv_start (memory memory' : Fin nftpSize → Option Handle) :
    LoopInv d (gatewayStart d memory memory') where
  handleq := nftpVecAlloc_ring memory
  mqttq := nftpVecAlloc_ring memory'
  listed := by
    intro hd hmem
    cases hmem
  scli hne := makeSubclis_last _ (Or.inl hne)

end Turn

/-- In every run with messages whose topics are in the table, each message is written to right
writers only, exactly if for each message that is taken from the queue there is a writer, or the
client that was used last cannot write it. -/
theorem routing_right_iff (d : DdsSetup) (memory memory' : Fin nftpSize → Option Handle)
    (events : List GatewayEvent) (hlisted : ∀ e ∈ events, e.Listed d) :
    AllSteps (gatewayStep d) (TurnRight d) (gatewayStart d memory memory') events ↔
      AllSteps (gatewayStep d) (TurnHasWriter d) (gatewayStart d memory memory') events := by
  refine allSteps_congr (I := LoopInv d) ?_ ?_ hlisted (loopInv_start memory memory')
  · intro s e _ h
    cases e with
    | arrive hd => exact Iff.rfl
    | turn rc => exact turnRight_iff h
  · intro s e s' he _ h hstep
    exact h.step he hstep

/-- Two topics are forwarded; `writer` is what the library answers when the second writer is
made. -/
def twoTopics (writer : ℤ) : DdsSetup where
  getHandler name := if name = ascii "S" then some 0 else none
  handlers _ := ⟨some, some⟩
  dds2mqtt := []
  mqtt2dds := [(⟨ascii "a", ascii "A", ascii "S"⟩, ⟨1, 2, 0⟩),
    (⟨ascii "b", ascii "B", ascii "S"⟩, ⟨1, writer, 0⟩)]
  fatalReturns := true

def messageOn (topic : String) : Handle := ⟨.toDds, [], ascii topic⟩

/-- A message for a writer that could be made. -/
theorem routing_right_message :
    AllSteps (gatewayStep (twoTopics 3)) (TurnRight (twoTopics 3))
      (gatewayStart (twoTopics 3) (fun _ => none) (fun _ => none))
      [.arrive (messageOn "b"), .turn 0] := by
  apply (routing_right_iff (twoTopics 3) (fun _ => none) (fun _ => none) _ ?_).mpr
  · obtain ⟨v, hv, -, hcontents⟩ := nftpVecPush_tail_of_lt
      (nftpVecAlloc_ring (fun _ => none)) (by decide) (some (messageOn "b"))
    have hs : gatewayStep (twoTopics 3)
        (gatewayStart (twoTopics 3) (fun _ => none) (fun _ => none))
        (.arrive (messageOn "b")) =
          some ⟨v, nftpVecAlloc (fun _ => none), (twoTopics 3).writers.2, [], false⟩ := by
      rw [gatewayStep, if_neg (by decide +kernel), gatewayStart, nftpVecAppend, hv]
      rfl
    refine ⟨trivial, ?_⟩
    rw [hs]
    refine ⟨?_, by cases gatewayStep (twoTopics 3) _ (.turn 0) <;> trivial⟩
    rintro hd ⟨-, hhd, -⟩
    dsimp only at hhd
    rw [hcontents] at hhd
    obtain rfl : messageOn "b" = hd := Option.some.inj (Option.some.inj hhd)
    exact Or.inl ⟨⟨some 3, some (ascii "B"), none, some 0⟩, by decide +kernel, _, rfl, rfl⟩
  · intro e he
    rcases List.mem_cons.mp he with rfl | he
    · intro _
      decide +kernel
    · obtain rfl := List.mem_singleton.mp he
      trivial

/-- The library refuses the writer of `B`: the message on `b` is written to the writer of `A`, which
the message before it was for. -/
theorem routing_stale_writer :
    let start := gatewayStart (twoTopics (-1)) (fun _ => none) (fun _ => none)
    let before : List GatewayEvent := [.arrive (messageOn "a"), .arrive (messageOn "b"), .turn 0]
    let events := before ++ [GatewayEvent.turn 0]
    (events.foldlM (gatewayStep (twoTopics (-1))) start).map
        (fun s => s.written.map (fun x => (x.scli.ddssendTopic, x.hd.topic))) =
      some [(some (ascii "A"), ascii "a"), (some (ascii "A"), ascii "b")] ∧
    ¬ AllSteps (gatewayStep (twoTopics (-1))) (TurnRight (twoTopics (-1))) start events := by
  intro start before events
  refine ⟨by decide +kernel, fun h => ?_⟩
  have hparts : (before.foldlM (gatewayStep (twoTopics (-1))) start).map (fun s =>
      decide (s.ended = false ∧ s.handleq.contents.head? = some (some (messageOn "b")) ∧
        s.written.map (·.scli.ddssendTopic) = [some (ascii "A")] ∧
        (gatewayStep (twoTopics (-1)) s (.turn 0)).map
            (fun s' => s'.written.map (·.scli.ddssendTopic)) =
          some [some (ascii "A"), some (ascii "A")])) = some true := by
    decide +kernel
  obtain ⟨s, hrun, hs⟩ := Option.map_eq_some_iff.mp hparts
  obtain ⟨hended, hhead, hwritten, hnext⟩ := of_decide_eq_true hs
  obtain ⟨s', sent, hstep, hsent, hright⟩ := (h.append hrun).1 (messageOn "b") ⟨hended, hhead, rfl⟩
  rw [hstep, Option.map_some, hsent, List.map_append, hwritten] at hnext
  obtain ⟨x, rfl, hx⟩ : ∃ x, sent = [x] ∧ x.scli.ddssendTopic = some (ascii "A") := by
    simpa using hnext
  obtain ⟨-, -, dt, hdt, htopic⟩ := hright x List.mem_cons_self
  have hfind : findDdsTopic (twoTopics (-1)).toDds (ascii "b") =
      some ⟨ascii "b", ascii "B", ascii "S"⟩ := rfl
  obtain rfl := Option.some.inj (hdt.symm.trans hfind)
  exact absurd (hx.symm.trans htopic) (by decide)

section Fatal

variable {d : DdsSetup}

theorem ddsSubcliInit_writer (getHandler : Bytes → Option ℕ) (table : List DdsGatewayTopic)
    (topic : Bytes) (answers : DdsAnswers) :
    (ddsSubcliInit getHandler false table topic answers).2.ddssendTopic = some topic := by
  simp only [ddsSubcliInit, Bool.false_eq_true, ↓reduceIte]
  split
  · rfl
  · split_ifs <;> rfl

/-- If no client was refused, every topic of the table has a writer. -/
theorem exists_rightWriter (hrefused : d.refused = false) {topic : Bytes}
    (h : (findDdsTopic d.toDds topic).isSome) : ∃ w, RightWriter d topic w := by
  obtain ⟨dt, hdt⟩ := Option.isSome_iff_exists.mp h
  obtain ⟨e, he, rfl⟩ := List.mem_map.mp (List.mem_of_find?_eq_some hdt)
  have hmade : (d.initWriter e.1 e.2).1 = 0 := by
    simp only [DdsSetup.refused, Bool.or_eq_false_iff, List.any_eq_false, decide_eq_true_eq,
      not_not] at hrefused
    exact hrefused.2 e he
  exact ⟨_, mem_makeSubclis.mpr (Or.inr ⟨e, he, hmade, rfl⟩), e.1, hdt,
    ddsSubcliInit_writer _ _ _ _⟩

end Fatal

/-- If `DDS_FATAL` ends the process, every message is written to right writers only. -/
theorem routing_right_of_fatal_ends (d : DdsSetup) (hfatal : d.fatalReturns = false)
    (memory memory' : Fin nftpSize → Option Handle) (events : List GatewayEvent)
    (hlisted : ∀ e ∈ events, e.Listed d) :
    AllSteps (gatewayStep d) (TurnRight d) (gatewayStart d memory memory') events := by
  refine (allSteps_congr (D := fun _ _ => True)
    (I := fun s => LoopInv d s ∧ (s.ended = true ∨ d.refused = false)) ?_ ?_ hlisted
    ⟨loopInv_start memory memory', ?_⟩).mpr (allSteps_of_forall (fun _ _ _ => trivial) _)
  · rintro s e - ⟨h, hmade⟩
    refine iff_true_intro ?_
    cases e with
    | arrive hd => trivial
    | turn rc =>
      refine (turnRight_iff h).mpr ?_
      rintro hd ⟨hended, hhead, htype⟩
      rw [hended] at hmade
      refine Or.inl (exists_rightWriter (hmade.resolve_left Bool.false_ne_true) ?_)
      exact h.listed hd (List.mem_of_head? hhead) htype
  · rintro s e s' he - ⟨h, hmade⟩ hstep
    refine ⟨h.step he hstep, hmade.imp_left fun hended => ?_⟩
    rw [gatewayStep_ended hended] at hstep
    obtain rfl := Option.some.inj hstep
    exact hended
  · cases hrefused : d.refused with
    | false => exact Or.inr rfl
    | true =>
      left
      rw [gatewayStart, hfatal, hrefused]
      exact Bool.or_true _

end NanoMQ
