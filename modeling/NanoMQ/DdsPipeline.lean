import NanoMQ.Crossing
import NanoMQ.DdsRouting
import Mathlib.Data.List.ReduceOption

/-!
# The gateway from end to end

Four threads of the gateway work on two queues. `mqtt_recv_loop` puts what comes from MQTT into the
queue of the MQTT client, and `dds_data_available` puts the samples of the readers into the queue of
the DDS client. `mqtt_loop` and `dds_client` take handles from their queues: each forwards what is
for the other side to the other queue, and sends what is for its own. To take a handle and to handle
it are two steps, as the mutex is given back in between. A handle for which its queue has no room is
lost, and so is one whose sending fails; the process ends where the generated handlers are at fault
or `DDS_FATAL` does not return. Memory for handles and topics is taken to be there, and a sample
that a reader announces to be taken.

If the topics of the messages from MQTT have writers, then in every interleaving no thread is at
fault outside the handlers, and each direction is a queue from end to end.
-/

namespace NanoMQ

open ByteBuffer GuardedRun

def findMqttTopic (dds2mqtt : List DdsGatewayTopic) (ddstopic : Bytes) : Option DdsGatewayTopic :=
  dds2mqtt.find? (fun t => ddstopic = t.fromTopic)

/-- What `nng_sendmsg` took: the text of a sample, for the topic of an entry of the table. -/
structure DdsPublished where
  dt : DdsGatewayTopic
  hd : Handle
  payload : Bytes

/-- The gateway: the queues and the writers of `DdsLoop`, the handles that `mqtt_loop` and
`dds_client` have taken, the samples that were published, and what came from MQTT and from DDS. -/
structure DdsPipe where
  loop : DdsLoop
  mqttHand : Option Handle
  ddsHand : Option Handle
  published : List DdsPublished
  received : List Handle
  sampled : List Handle

inductive PipeEvent
  /-- `mqtt_recv_loop` -/
  | recv (msg topic : Bytes)
  /-- `dds_data_available` for one of the readers -/
  | sample (reader : ℕ) (data : Bytes)
  /-- `mqtt_loop` under its mutex -/
  | mqttLoopTake
  /-- `mqtt_loop` from `work` on; `rv` is what `nng_sendmsg` returns -/
  | mqttLoopWork (rv : ℤ)
  /-- `dds_client` under its mutex -/
  | ddsClientTake
  /-- `dds_client` from `work` on; `rc` is what `dds_write` returns -/
  | ddsClientWork (rc : ℤ)

/-- `mqtt_loop` from `work` on. A structure without handlers is used through a null pointer; what
`nng_sendmsg` returns is only logged. -/
def mqttLoopWork (d : DdsSetup) (rv : ℤ) (p : DdsPipe) (hd : Handle) : Option DdsPipe :=
  match hd.type with
  | .toDds =>
      (nftpVecAppend p.loop.handleq (some hd)).map
        (fun r => { p with loop := { p.loop with handleq := r.2 } })
  | .toMqtt =>
      match findMqttTopic d.toMqtt hd.topic with
      | none => some p
      | some dt =>
          (d.getHandler dt.structName).map (fun handles =>
            match (d.handlers handles).dds2mqtt hd.data with
            | none => { p with loop := { p.loop with ended := true } }
            | some payload =>
                if rv = 0 then { p with published := p.published ++ [⟨dt, hd, payload⟩] } else p)
  | .other => some p

def takeHandle (q : NftpVec Handle) (hand : Option Handle) :
    Option (NftpVec Handle × Option Handle) :=
  if hand.isSome ∨ q.len = 0 then some (q, hand)
  else (nftpVecPop q nftpHead).map (fun r => (r.2.2, r.2.1.join))

def pipeStep (d : DdsSetup) (p : DdsPipe) (e : PipeEvent) : Option DdsPipe :=
  if p.loop.ended then some p
  else
    match e with
    | .recv msg topic =>
        let hd : Handle := ⟨.toDds, msg, topic⟩
        (nftpVecAppend p.loop.mqttq (some hd)).map (fun r =>
          { p with loop := { p.loop with mqttq := r.2 }, received := p.received ++ [hd] })
    | .sample reader data =>
        match d.readers.1[reader]? with
        | none => some p
        | some scli => do
            let topic ← scli.ddsrecvTopic
            let hd : Handle := ⟨.toMqtt, data, topic⟩
            (nftpVecAppend p.loop.handleq (some hd)).map (fun r =>
              { p with loop := { p.loop with handleq := r.2 }, sampled := p.sampled ++ [hd] })
    | .mqttLoopTake =>
        (takeHandle p.loop.mqttq p.mqttHand).map (fun r =>
          { p with loop := { p.loop with mqttq := r.1 }, mqttHand := r.2 })
    | .mqttLoopWork rv =>
        match p.mqttHand with
        | none => some p
        | some hd => mqttLoopWork d rv { p with mqttHand := none } hd
    | .ddsClientTake =>
        (takeHandle p.loop.handleq p.ddsHand).map (fun r =>
          { p with loop := { p.loop with handleq := r.1 }, ddsHand := r.2 })
    | .ddsClientWork rc =>
        match p.ddsHand with
        | none => some p
        | some hd =>
            (ddsClientWork d rc p.loop hd).map
              (fun loop => { p with loop := loop, ddsHand := none })

def pipeStart (d : DdsSetup) (memory memory' : Fin nftpSize → Option Handle) : DdsPipe :=
  ⟨gatewayStart d memory memory', none, none, [], [], []⟩

/-- The queue that an event puts a handle into has room for it, and a message or a sample that is
sent is taken. -/
def PipeEvent.Taken (p : DdsPipe) : PipeEvent → Prop
  | .recv _ _ => p.loop.mqttq.len < nftpSize
  | .sample _ _ => p.loop.handleq.len < nftpSize
  | .mqttLoopWork rv => ∀ hd ∈ p.mqttHand,
      if hd.type = .toDds then p.loop.handleq.len < nftpSize else rv = 0
  | .ddsClientWork rc => ∀ hd ∈ p.ddsHand,
      if hd.type = .toDds then rc = 0 else p.loop.mqttq.len < nftpSize
  | .mqttLoopTake | .ddsClientTake => True

/-- A message from MQTT has a topic with a writer. -/
def PipeEvent.Routed (d : DdsSetup) : PipeEvent → Prop
  | .recv _ topic => ∃ w, RightWriter d topic w
  | _ => True

def toDdsHandle (hd : Handle) : Bool := hd.type = .toDds

theorem toDdsHandle_of_toMqtt {hd : Handle} (h : hd.type = .toMqtt) : toDdsHandle hd = false := by
  rw [toDdsHandle, h]
  rfl

def NftpVec.handles (q : NftpVec Handle) : List Handle := q.contents.reduceOption

namespace DdsPipe

/-- The gateway as two stations: the MQTT client on the left, the DDS client on the right. -/
def stations (p : DdsPipe) : Crossing.Stations Handle where
  left := p.mqttHand.toList ++ p.loop.mqttq.handles
  right := p.ddsHand.toList ++ p.loop.handleq.handles
  leftIn := p.received
  rightIn := p.sampled
  leftOut := p.published.map DdsPublished.hd
  rightOut := p.loop.written.map DdsWrite.hd

end DdsPipe

section Queues

variable {q : NftpVec Handle}

theorem exists_append (h : q.Ring) (hd : Handle) :
    ∃ rc q', nftpVecAppend q (some hd) = some (rc, q') ∧ q'.Ring ∧
      q'.handles = q.handles ++ Crossing.keep (decide (q.len < nftpSize)) hd := by
  obtain ⟨rc, q', happend, hring, hcontents⟩ := exists_nftpVecAppend h (some hd)
  refine ⟨rc, q', happend, hring, ?_⟩
  rw [h.cap] at hcontents
  rcases hcontents with ⟨hroom, hcontents⟩ | ⟨hfull, rfl⟩
  · rw [NftpVec.handles, hcontents, List.reduceOption_append, decide_eq_true hroom]
    rfl
  · rw [decide_eq_false (Nat.not_lt.mpr hfull), Crossing.keep_false, List.append_nil]

theorem exists_takeHandle (h : q.Ring) (hand : Option Handle) :
    ∃ q' hand', takeHandle q hand = some (q', hand') ∧ q'.Ring ∧
      hand'.toList ++ q'.handles = hand.toList ++ q.handles := by
  unfold takeHandle
  split_ifs with hwait
  · exact ⟨q, hand, rfl, h, rfl⟩
  · obtain ⟨hhand, hlen⟩ := not_or.mp hwait
    obtain ⟨x, q', hpop, hring, hcontents⟩ := nftpVecPop_head h hlen
    refine ⟨q', x, ?_, hring, ?_⟩
    · rw [hpop]
      rfl
    · rw [Option.not_isSome_iff_eq_none.mp hhand, NftpVec.handles, NftpVec.handles, hcontents]
      cases x <;> rfl

end Queues

section Readers

theorem ddsSubcliInit_reader {getHandler : Bytes → Option ℕ} {table : List DdsGatewayTopic}
    {topic : Bytes} {answers : DdsAnswers}
    (h : (ddsSubcliInit getHandler true table topic answers).1 = 0) :
    (ddsSubcliInit getHandler true table topic answers).2.ddsrecvTopic = some topic ∧
      ∃ dt, findMqttTopic table topic = some dt ∧ (getHandler dt.structName).isSome = true := by
  simp only [ddsSubcliInit, ↓reduceIte] at h ⊢
  split at h
  · cases h
  · rename_i handles hentry
    obtain ⟨dt, hfind, hhandler⟩ := Option.bind_eq_some_iff.mp hentry
    refine ⟨?_, dt, hfind, Option.isSome_of_eq_some hhandler⟩
    split_ifs <;> rfl

def SampleTopic (d : DdsSetup) (topic : Bytes) : Prop :=
  ∃ dt, findMqttTopic d.toMqtt topic = some dt ∧ (d.getHandler dt.structName).isSome = true

theorem DdsSetup.readers_sample (d : DdsSetup) {scli : DdsSubcli} (h : scli ∈ d.readers.1) :
    ∃ topic, scli.ddsrecvTopic = some topic ∧ SampleTopic d topic := by
  rcases mem_makeSubclis.mp h with hnil | ⟨e, -, hinit, rfl⟩
  · cases hnil
  · obtain ⟨htopic, hsample⟩ := ddsSubcliInit_reader hinit
    exact ⟨e.1.fromTopic, htopic, hsample⟩

end Readers

/-- A message was written to a writer of its topic, as the handlers convert it. -/
def DdsWrite.Right (d : DdsSetup) (x : DdsWrite) : Prop :=
  RightWriter d x.hd.topic x.scli ∧
    ∃ handles, x.scli.handles = some handles ∧
      (d.handlers handles).mqtt2dds x.hd.data = some x.sample

/-- A sample was published as the table says and as the handlers convert it. -/
def DdsPublished.Right (d : DdsSetup) (x : DdsPublished) : Prop :=
  findMqttTopic d.toMqtt x.hd.topic = some x.dt ∧
    ∃ handles, d.getHandler x.dt.structName = some handles ∧
      (d.handlers handles).dds2mqtt x.hd.data = some x.payload

structure PipeOk (d : DdsSetup) (p : DdsPipe) : Prop where
  handleq : p.loop.handleq.Ring
  mqttq : p.loop.mqttq.Ring
  received : ∀ hd ∈ p.received, hd.type = .toDds ∧ ∃ w, RightWriter d hd.topic w
  sampled : ∀ hd ∈ p.sampled, hd.type = .toMqtt ∧ SampleTopic d hd.topic
  written : ∀ x ∈ p.loop.written, x.Right d
  published : ∀ x ∈ p.published, x.Right d

structure PipeInv (d : DdsSetup) (p : DdsPipe) : Prop extends PipeOk d p where
  order : Crossing.InOrder toDdsHandle p.stations

structure PipeMove (d : DdsSetup) (p : DdsPipe) (e : PipeEvent) (kept : Bool) (p' : DdsPipe) :
    Prop extends PipeOk d p' where
  step : pipeStep d p e = some p'
  move : Crossing.Step toDdsHandle kept p.stations p'.stations
  taken : e.Taken p → p'.loop.ended = false → kept = true

section Sending

variable {d : DdsSetup} {hd : Handle}

/-- A sample is published, or lost where the process ends or the message is not taken. -/
theorem mqttLoopWork_toMqtt (p : DdsPipe) (rv : ℤ) (htype : hd.type = .toMqtt)
    (hsample : SampleTopic d hd.topic) :
    ∃ kept sent ended,
      mqttLoopWork d rv p hd = some { p with
        loop := { p.loop with ended := ended }, published := p.published ++ sent } ∧
      (∀ x ∈ sent, x.Right d) ∧ sent.map DdsPublished.hd = Crossing.keep kept hd ∧
      (rv = 0 → ended = false → kept = true) := by
  obtain ⟨dt, hdt, hhandler⟩ := hsample
  obtain ⟨handles, hhandles⟩ := Option.isSome_iff_exists.mp hhandler
  rw [mqttLoopWork, htype]
  dsimp only
  rw [hdt]
  dsimp only
  rw [hhandles, Option.map_some]
  cases hpayload : (d.handlers handles).dds2mqtt hd.data with
  | none =>
    refine ⟨false, [], true, ?_, List.forall_mem_nil _, rfl, fun _ hended => ?_⟩
    · rw [List.append_nil]
    · cases hended
  | some payload =>
    dsimp only
    split_ifs with hrv
    · refine ⟨true, [⟨dt, hd, payload⟩], p.loop.ended, rfl, ?_, rfl, fun _ _ => rfl⟩
      exact List.forall_mem_singleton.mpr ⟨hdt, handles, hhandles, hpayload⟩
    · refine ⟨false, [], p.loop.ended, ?_, List.forall_mem_nil _, rfl, fun h => absurd h hrv⟩
      rw [List.append_nil]

/-- A message is written to a writer for it, or lost where the process ends or the library refuses
it. -/
theorem ddsClientWork_written (s : DdsLoop) (rc : ℤ) (htype : hd.type = .toDds) {w : DdsSubcli}
    (hw : RightWriter d hd.topic w) :
    ∃ kept sent ended scli,
      ddsClientWork d rc s hd = some { s with
        scli := some scli, written := s.written ++ sent, ended := ended } ∧
      (∀ x ∈ sent, x.Right d) ∧ sent.map DdsWrite.hd = Crossing.keep kept hd ∧
      (rc = 0 → ended = false → kept = true) := by
  obtain ⟨scli, hscli, hsend⟩ := handleToDds_of_writer s rc hw
  rw [ddsClientWork_toDds htype, hsend]
  obtain ⟨s', hs'⟩ : ∃ s', ddsSubcliSend d rc { s with scli := some scli } scli hd = some s' :=
    exists_ddsSubcliSend _ (Or.inr (d.writers_ready scli hscli.1))
  rw [hs']
  rcases ddsSubcliSend_cases hs' with
    ⟨-, hlost, ended, rfl⟩ | ⟨-, handles, sample, hhandles, hsample, rfl⟩
  · refine ⟨false, [], ended, scli, ?_, List.forall_mem_nil _, rfl, fun hrc hended => ?_⟩
    · rw [List.append_nil]
    · cases (hlost hrc).symm.trans hended
  · refine ⟨true, [⟨scli, hd, sample⟩], s.ended, scli, rfl, ?_, rfl, fun _ _ => rfl⟩
    exact List.forall_mem_singleton.mpr ⟨hscli, handles, hhandles, hsample⟩

end Sending

theorem pipeStep_ended {d : DdsSetup} {p : DdsPipe} (h : p.loop.ended = true) (e : PipeEvent) :
    pipeStep d p e = some p := by
  unfold pipeStep
  exact if_pos h

namespace PipeInv

variable {d : DdsSetup} {p : DdsPipe} {hd : Handle}

theorem taken (h : PipeInv d p) (hhand : p.mqttHand = some hd ∨ p.ddsHand = some hd) :
    (hd.type = .toDds ∧ ∃ w, RightWriter d hd.topic w) ∨
      hd.type = .toMqtt ∧ SampleTopic d hd.topic := by
  have hmem : hd ∈ p.stations.left ∨ hd ∈ p.stations.right := by
    refine hhand.imp (fun heq => ?_) (fun heq => ?_)
    · exact List.mem_append_left _ (Option.mem_toList.mpr heq)
    · exact List.mem_append_left _ (Option.mem_toList.mpr heq)
  exact (h.order.mem hmem).imp (h.received hd) (h.sampled hd)

theorem idle (h : PipeInv d p) {e : PipeEvent} (hstep : pipeStep d p e = some p) :
    PipeMove d p e true p :=
  ⟨h.toPipeOk, hstep, .idle _, fun _ _ => rfl⟩

theorem recv (h : PipeInv d p) (hended : ¬ p.loop.ended = true) {msg topic : Bytes}
    (hrouted : ∃ w, RightWriter d topic w) : ∃ kept p', PipeMove d p (.recv msg topic) kept p' := by
  obtain ⟨rc, q, happend, hring, hhandles⟩ := exists_append h.mqttq ⟨.toDds, msg, topic⟩
  refine ⟨decide (p.loop.mqttq.len < nftpSize), { p with
    loop := { p.loop with mqttq := q }, received := p.received ++ [⟨.toDds, msg, topic⟩] },
    ⟨h.handleq, hring, ?_, h.sampled, h.written, h.published⟩, ?_, ?_,
    fun hroom _ => decide_eq_true hroom⟩
  · exact List.forall_mem_append.mpr ⟨h.received, List.forall_mem_singleton.mpr ⟨rfl, hrouted⟩⟩
  · rw [pipeStep, if_neg hended]
    dsimp only
    rw [happend]
    rfl
  · refine .of_eq (.enterLeft _ _ (x := ⟨.toDds, msg, topic⟩) rfl) ?_
    simp only [DdsPipe.stations, hhandles, List.append_assoc]

theorem sample (h : PipeInv d p) (hended : ¬ p.loop.ended = true) {reader : ℕ} {data : Bytes} :
    ∃ kept p', PipeMove d p (.sample reader data) kept p' := by
  cases hreader : d.readers.1[reader]? with
  | none =>
    refine ⟨true, p, h.idle ?_⟩
    rw [pipeStep, if_neg hended, hreader]
  | some scli =>
    obtain ⟨topic, htopic, hsample⟩ := d.readers_sample (List.mem_of_getElem? hreader)
    obtain ⟨rc, q, happend, hring, hhandles⟩ := exists_append h.handleq ⟨.toMqtt, data, topic⟩
    refine ⟨decide (p.loop.handleq.len < nftpSize), { p with
      loop := { p.loop with handleq := q }, sampled := p.sampled ++ [⟨.toMqtt, data, topic⟩] },
      ⟨hring, h.mqttq, h.received, ?_, h.written, h.published⟩, ?_, ?_,
      fun hroom _ => decide_eq_true hroom⟩
    · exact List.forall_mem_append.mpr ⟨h.sampled, List.forall_mem_singleton.mpr ⟨rfl, hsample⟩⟩
    · rw [pipeStep, if_neg hended, hreader]
      dsimp only [Option.bind_eq_bind]
      rw [htopic, Option.bind_some, happend]
      rfl
    · refine .of_eq (.enterRight _ _ (x := ⟨.toMqtt, data, topic⟩) rfl) ?_
      simp only [DdsPipe.stations, hhandles, List.append_assoc]

theorem mqttLoopTake (h : PipeInv d p) (hended : ¬ p.loop.ended = true) :
    ∃ kept p', PipeMove d p .mqttLoopTake kept p' := by
  obtain ⟨q, hand, htake, hring, hlist⟩ := exists_takeHandle h.mqttq p.mqttHand
  refine ⟨true, { p with loop := { p.loop with mqttq := q }, mqttHand := hand },
    ⟨h.handleq, hring, h.received, h.sampled, h.written, h.published⟩, ?_, ?_, fun _ _ => rfl⟩
  · rw [pipeStep, if_neg hended, htake]
    rfl
  · refine .of_eq (.idle _) ?_
    simp only [DdsPipe.stations, hlist]

theorem ddsClientTake (h : PipeInv d p) (hended : ¬ p.loop.ended = true) :
    ∃ kept p', PipeMove d p .ddsClientTake kept p' := by
  obtain ⟨q, hand, htake, hring, hlist⟩ := exists_takeHandle h.handleq p.ddsHand
  refine ⟨true, { p with loop := { p.loop with handleq := q }, ddsHand := hand },
    ⟨hring, h.mqttq, h.received, h.sampled, h.written, h.published⟩, ?_, ?_, fun _ _ => rfl⟩
  · rw [pipeStep, if_neg hended, htake]
    rfl
  · refine .of_eq (.idle _) ?_
    simp only [DdsPipe.stations, hlist]

theorem mqttLoopWork (h : PipeInv d p) (hended : ¬ p.loop.ended = true) {rv : ℤ} :
    ∃ kept p', PipeMove d p (.mqttLoopWork rv) kept p' := by
  cases hhand : p.mqttHand with
  | none =>
    refine ⟨true, p, h.idle ?_⟩
    rw [pipeStep, if_neg hended, hhand]
  | some hd =>
    have hleft : p.stations.left = hd :: p.loop.mqttq.handles := by
      rw [DdsPipe.stations, hhand]
      rfl
    rcases h.taken (Or.inl hhand) with ⟨htype, -⟩ | ⟨htype, hsample⟩
    · obtain ⟨rc, q, happend, hring, hhandles⟩ := exists_append h.handleq hd
      refine ⟨decide (p.loop.handleq.len < nftpSize),
        { p with loop := { p.loop with handleq := q }, mqttHand := none },
        ⟨hring, h.mqttq, h.received, h.sampled, h.written, h.published⟩, ?_, ?_, ?_⟩
      · rw [pipeStep, if_neg hended, hhand]
        dsimp only
        rw [NanoMQ.mqttLoopWork, htype, happend]
        rfl
      · refine .of_eq (.crossLeft _ _ (decide_eq_true htype) hleft) ?_
        simp only [DdsPipe.stations, hhandles, List.append_assoc, Option.toList_none,
          List.nil_append]
      · intro htaken _
        have hroom := htaken hd hhand
        rw [if_pos htype] at hroom
        exact decide_eq_true hroom
    · obtain ⟨kept, sent, ended, hwork, hright, hkept, htaken⟩ :=
        mqttLoopWork_toMqtt { p with mqttHand := none } rv htype hsample
      refine ⟨kept, { p with
          loop := { p.loop with ended := ended }
          mqttHand := none
          published := p.published ++ sent },
        ⟨h.handleq, h.mqttq, h.received, h.sampled, h.written, ?_⟩, ?_, ?_, ?_⟩
      · exact List.forall_mem_append.mpr ⟨h.published, hright⟩
      · rw [pipeStep, if_neg hended, hhand]
        exact hwork
      · refine .of_eq (.leaveLeft _ _ (toDdsHandle_of_toMqtt htype) hleft) ?_
        simp only [DdsPipe.stations, Option.toList_none, List.nil_append, List.map_append, hkept]
      · intro hsent
        have hrv := hsent hd hhand
        rw [htype, if_neg (by decide)] at hrv
        exact htaken hrv

theorem ddsClientWork (h : PipeInv d p) (hended : ¬ p.loop.ended = true) {rc : ℤ} :
    ∃ kept p', PipeMove d p (.ddsClientWork rc) kept p' := by
  cases hhand : p.ddsHand with
  | none =>
    refine ⟨true, p, h.idle ?_⟩
    rw [pipeStep, if_neg hended, hhand]
  | some hd =>
    have hright : p.stations.right = hd :: p.loop.handleq.handles := by
      rw [DdsPipe.stations, hhand]
      rfl
    rcases h.taken (Or.inr hhand) with ⟨htype, w, hw⟩ | ⟨htype, -⟩
    · obtain ⟨kept, sent, ended, scli, hwork, hsent, hkept, htaken⟩ :=
        ddsClientWork_written p.loop rc htype hw
      refine ⟨kept, { p with
          loop := { p.loop with
            scli := some scli, written := p.loop.written ++ sent, ended := ended }
          ddsHand := none },
        ⟨h.handleq, h.mqttq, h.received, h.sampled, ?_, h.published⟩, ?_, ?_, ?_⟩
      · exact List.forall_mem_append.mpr ⟨h.written, hsent⟩
      · rw [pipeStep, if_neg hended, hhand]
        dsimp only
        rw [hwork]
        rfl
      · refine .of_eq (.leaveRight _ _ (decide_eq_true htype) hright) ?_
        simp only [DdsPipe.stations, Option.toList_none, List.nil_append, List.map_append, hkept]
      · intro hsent
        have hrc := hsent hd hhand
        rw [if_pos htype] at hrc
        exact htaken hrc
    · obtain ⟨rc, q, happend, hring, hhandles⟩ := exists_append h.mqttq hd
      refine ⟨decide (p.loop.mqttq.len < nftpSize),
        { p with loop := { p.loop with mqttq := q }, ddsHand := none },
        ⟨h.handleq, hring, h.received, h.sampled, h.written, h.published⟩, ?_, ?_, ?_⟩
      · rw [pipeStep, if_neg hended, hhand]
        dsimp only
        rw [NanoMQ.ddsClientWork, htype, happend]
        rfl
      · refine .of_eq (.crossRight _ _ (toDdsHandle_of_toMqtt htype) hright) ?_
        simp only [DdsPipe.stations, hhandles, List.append_assoc, Option.toList_none,
          List.nil_append]
      · intro htaken _
        have hroom := htaken hd hhand
        rw [htype, if_neg (by decide)] at hroom
        exact decide_eq_true hroom

theorem exists_move (h : PipeInv d p) {e : PipeEvent} (hrouted : e.Routed d) :
    ∃ kept p', PipeMove d p e kept p' := by
  by_cases hended : p.loop.ended = true
  · exact ⟨true, p, h.idle (pipeStep_ended hended e)⟩
  · cases e with
    | recv msg topic => exact h.recv hended hrouted
    | sample reader data => exact h.sample hended
    | mqttLoopTake => exact h.mqttLoopTake hended
    | mqttLoopWork rv => exact h.mqttLoopWork hended
    | ddsClientTake => exact h.ddsClientTake hended
    | ddsClientWork rc => exact h.ddsClientWork hended

theorem start (memory memory' : Fin nftpSize → Option Handle) :
    PipeInv d (pipeStart d memory memory') where
  handleq := nftpVecAlloc_ring memory
  mqttq := nftpVecAlloc_ring memory'
  order := ⟨List.Sublist.refl [], List.Sublist.refl []⟩
  received := fun hd hmem => by cases hmem
  sampled := fun hd hmem => by cases hmem
  written := fun x hmem => by cases hmem
  published := fun x hmem => by cases hmem

theorem exists_run (h : PipeInv d p) {events : List PipeEvent}
    (hrouted : ∀ e ∈ events, e.Routed d) :
    ∃ p', events.foldlM (pipeStep d) p = some p' ∧ PipeInv d p' ∧
      (p.loop.ended = true → p'.loop.ended = true) ∧
      (Crossing.Complete toDdsHandle p.stations →
        AllSteps (pipeStep d) (fun p e => e.Taken p) p events → p'.loop.ended = false →
        Crossing.Complete toDdsHandle p'.stations) := by
  induction events generalizing p with
  | nil => exact ⟨p, rfl, h, id, fun hcomplete _ _ => hcomplete⟩
  | cons e events ih =>
    obtain ⟨he, hevents⟩ := List.forall_mem_cons.mp hrouted
    obtain ⟨kept, p₁, hmove⟩ := h.exists_move he
    obtain ⟨p', hrun, hinv, hended, hcomplete⟩ :=
      ih ⟨hmove.toPipeOk, h.order.step hmove.move⟩ hevents
    refine ⟨p', ?_, hinv, fun hstart => ?_, fun hstart htaken hlive => ?_⟩
    · rw [List.foldlM_cons, hmove.step]
      exact hrun
    · obtain rfl := Option.some.inj ((pipeStep_ended hstart e).symm.trans hmove.step)
      exact hended hstart
    · obtain ⟨hfirst, hlater⟩ := htaken
      rw [hmove.step] at hlater
      have hlive₁ : p₁.loop.ended = false := by
        rw [← Bool.not_eq_true]
        intro hdead
        cases (hended hdead).symm.trans hlive
      have hkept := hmove.move
      rw [hmove.taken hfirst hlive₁] at hkept
      exact hcomplete (hstart.step hkept) hlater hlive

end PipeInv

/-- In every interleaving of the threads no thread is at fault, if the topics of the messages have
writers. Each message is written to a writer for it, each sample is published as the table says, and
both directions are in the order of arrival. Nothing is missing if the queues had room, all that was
sent was taken and the process has not ended. -/
theorem gateway_end_to_end (d : DdsSetup) (memory memory' : Fin nftpSize → Option Handle)
    (events : List PipeEvent) (hrouted : ∀ e ∈ events, e.Routed d) :
    ∃ p, events.foldlM (pipeStep d) (pipeStart d memory memory') = some p ∧
      (∀ x ∈ p.loop.written, x.Right d) ∧ (∀ x ∈ p.published, x.Right d) ∧
      Crossing.InOrder toDdsHandle p.stations ∧
      (AllSteps (pipeStep d) (fun p e => e.Taken p) (pipeStart d memory memory') events →
        p.loop.ended = false → Crossing.Complete toDdsHandle p.stations) := by
  obtain ⟨p, hrun, hinv, -, hcomplete⟩ := (PipeInv.start memory memory').exists_run hrouted
  exact ⟨p, hrun, hinv.written, hinv.published, hinv.order, hcomplete ⟨rfl, rfl⟩⟩

def oneEachWay : DdsSetup where
  getHandler _ := some 0
  handlers _ := ⟨some, some⟩
  dds2mqtt := [(⟨ascii "A", ascii "a", ascii "S"⟩, ⟨1, 2, 0⟩)]
  mqtt2dds := [(⟨ascii "b", ascii "B", ascii "S"⟩, ⟨1, 3, 0⟩)]
  fatalReturns := false

def passing : List PipeEvent :=
  [.recv [1] (ascii "b"), .sample 0 [2], .mqttLoopTake, .ddsClientTake, .ddsClientWork 0,
    .mqttLoopWork 0, .mqttLoopTake, .mqttLoopWork 0, .ddsClientTake, .ddsClientWork 0]

theorem gateway_end_to_end_crossing :
    ∃ p, passing.foldlM (pipeStep oneEachWay)
          (pipeStart oneEachWay (fun _ => none) (fun _ => none)) = some p ∧
      (∀ x ∈ p.loop.written, x.Right oneEachWay) ∧ (∀ x ∈ p.published, x.Right oneEachWay) ∧
      Crossing.InOrder toDdsHandle p.stations ∧
      (AllSteps (pipeStep oneEachWay) (fun p e => e.Taken p)
          (pipeStart oneEachWay (fun _ => none) (fun _ => none)) passing →
        p.loop.ended = false → Crossing.Complete toDdsHandle p.stations) := by
  refine gateway_end_to_end oneEachWay (fun _ => none) (fun _ => none) passing ?_
  intro e he
  simp only [passing, List.mem_cons, List.not_mem_nil, or_false] at he
  rcases he with rfl | rfl | rfl | rfl | rfl | rfl | rfl | rfl | rfl | rfl
  · exact ⟨⟨some 3, some (ascii "B"), none, some 0⟩, by decide +kernel, _, rfl, rfl⟩
  all_goals trivial

end NanoMQ
