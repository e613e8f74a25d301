import NanoMQ.Server

/-!
# What a publication is seen by

The effects of a work that come from the message it handles: deliveries, forwards, inserts of the
rule engine, reports of a published message and what happens to the tables under a topic. The
states WAIT and SEND are described by the effects they append, and by when these are none of them.
-/

namespace NanoMQ

open ByteBuffer

def Effect.shows : Effect → Bool
  | .deliver _ _ | .bridgeForward _ | .awsForward _ | .nngForward _ | .ruleEngineInsert _ => true
  | .webhook event => event = .messagePublish
  | .table a => a.underTopic.isSome
  | .reply _ _ | .extraSend _ | .iceoryxSend _ | .fatal => false

/-- Nothing of a message is to be seen between two states of the system. -/
structure NoEffect (s t : Sys) : Prop where
  log : ∃ es, t.log = s.log ++ es ∧ ∀ e ∈ es, e.shows = false
  retained : t.store.retained = s.store.retained

theorem NoEffect.refl (s : Sys) : NoEffect s s := ⟨⟨[], by simp, by simp⟩, rfl⟩

theorem NoEffect.trans {s t u : Sys} (h₁ : NoEffect s t) (h₂ : NoEffect t u) : NoEffect s u := by
  obtain ⟨es₁, hlog₁, hno₁⟩ := h₁.log
  obtain ⟨es₂, hlog₂, hno₂⟩ := h₂.log
  refine ⟨⟨es₁ ++ es₂, ?_, ?_⟩, h₂.retained.trans h₁.retained⟩
  · rw [hlog₂, hlog₁, List.append_assoc]
  · intro e he
    rcases List.mem_append.mp he with h | h
    · exact hno₁ e h
    · exact hno₂ e h

theorem NoEffect.of_same {s t t' : Sys} (h : NoEffect s t) (hlog : t'.log = t.log)
    (hstore : t'.store = t.store) : NoEffect s t' := by
  obtain ⟨hes, hret⟩ := h
  rw [← hlog] at hes
  rw [← hstore] at hret
  exact ⟨hes, hret⟩

theorem NoEffect.iff_of_log {s t : Sys} {es : List Effect} (hlog : t.log = s.log ++ es)
    (hret : t.store.retained = s.store.retained) :
    NoEffect s t ↔ ∀ e ∈ es, e.shows = false := by
  constructor
  · rintro ⟨⟨es', hlog', hno⟩, -⟩
    rw [hlog] at hlog'
    rwa [List.append_cancel_left hlog']
  · intro hno
    exact ⟨⟨es, hlog, hno⟩, hret⟩

/-- What is appended later cannot hide what was seen before. -/
theorem NoEffect.of_trans {s t u : Sys} (hst : NoEffect s t) (hsu : NoEffect s u)
    {es : List Effect} (hlog : u.log = t.log ++ es) (hret : u.store.retained = t.store.retained) :
    NoEffect t u := by
  obtain ⟨es₁, hlog₁, -⟩ := hst.log
  obtain ⟨es₂, hlog₂, hno₂⟩ := hsu.log
  refine ⟨⟨es, hlog, fun e he => hno₂ e ?_⟩, hret⟩
  rw [hlog, hlog₁, List.append_assoc] at hlog₂
  rw [← List.append_cancel_left hlog₂]
  exact List.mem_append_right es₁ he

/-- Before the routing `handle_pub` does nothing under a topic. -/
theorem NoEffect.of_frame {s : Sys} {w : Work} {t : PubState} (h : PubFrame (pubStart s.store w) t)
    (w' : Work) : NoEffect s ⟨w', t.store, s.log ++ t.actions.map .table⟩ := by
  obtain ⟨acts, hacts, hunder⟩ := h.actions
  refine ⟨⟨t.actions.map .table, rfl, ?_⟩, h.retained⟩
  intro e he
  obtain ⟨a, ha, rfl⟩ := List.mem_map.mp he
  rw [hacts] at ha
  change a.underTopic.isSome = false
  rw [hunder a ha]
  rfl

section Send

variable (nng : Nng) (conf : Conf) (w : Work)

def sendEffects : List Effect :=
  ruleEngineEffects conf w ++ iceoryxEffects conf w ++
    ((hookEvent nng conf w).map Effect.webhook).toList

theorem log_sendStep (s : Sys) :
    (sendStep nng conf s).log = s.log ++ sendEffects nng conf s.work :=
  List.append_assoc _ _ _

structure SilentSend (topic : Option Bytes) : Prop where
  rules : ruleEngineOn conf = false
  hook : conf.webHookEnable = true →
    eventFilterWithTopic nng conf .messagePublish topic = false

variable {nng conf w}

theorem ruleEngineEffects_silent_iff (hflag : w.flag = .publish) :
    (∀ e ∈ ruleEngineEffects conf w, e.shows = false) ↔ ruleEngineOn conf = false := by
  unfold ruleEngineEffects
  cases hr : ruleEngineOn conf <;> simp [hflag, Effect.shows]

theorem iceoryxEffects_silent : ∀ e ∈ iceoryxEffects conf w, e.shows = false := by
  intro e he
  unfold iceoryxEffects at he
  cases hm : w.msg with
  | none =>
    rw [hm] at he
    cases he
  | some m =>
    rw [hm] at he
    dsimp only at he
    split_ifs at he
    · rw [List.mem_singleton.mp he]
      rfl
    · cases he

theorem hookEvent_silent_iff (hflag : w.flag = .publish) :
    (∀ e ∈ ((hookEvent nng conf w).map Effect.webhook).toList, e.shows = false) ↔
      (conf.webHookEnable = true →
        eventFilterWithTopic nng conf .messagePublish w.packet.topicBody = false) := by
  unfold hookEvent
  rw [hflag]
  cases conf.webHookEnable with
  | false => simp
  | true =>
    cases hf : eventFilterWithTopic nng conf .messagePublish w.packet.topicBody <;>
      simp [Effect.shows]

theorem sendEffects_silent_iff (hflag : w.flag = .publish) :
    (∀ e ∈ sendEffects nng conf w, e.shows = false) ↔
      SilentSend nng conf w.packet.topicBody := by
  unfold sendEffects
  simp only [List.forall_mem_append]
  rw [ruleEngineEffects_silent_iff hflag, hookEvent_silent_iff hflag]
  constructor
  · rintro ⟨⟨hrules, -⟩, hhook⟩
    exact ⟨hrules, hhook⟩
  · rintro ⟨hrules, hhook⟩
    exact ⟨⟨hrules, iceoryxEffects_silent⟩, hhook⟩

end Send

section Forward

variable (nng : Nng) (conf : Conf) (pkt : PubPacket)

def NoForward (nodes : List BridgeNode) : Prop :=
  ∀ node ∈ nodes, node.enable = true → ∀ t ∈ node.forwards,
    nng.topicFilter t.localTopic pkt.topicBody = false

/-- WAIT forwards nothing under the topic of the packet. -/
structure SilentForward : Prop where
  bridge : conf.bridgeMode = true →
    (pkt.topicLen > 4 ∧ pkt.startsSys = true) ∨ NoForward nng pkt conf.bridgeNodes
  aws : conf.bridgeMode = true → conf.build.awsBridge = true → NoForward nng pkt conf.awsNodes
  proxy : conf.nngPubEnable = true →
    (pkt.topicLen ≥ 4 ∧ pkt.startsSys = true) ∨
      ∀ node ∈ conf.nngPubNodes, ∀ e ∈ node, nng.topicFilter e.localTopic pkt.topicBody = false

variable {nng conf}

theorem map_silent_iff {α : Type} {f : α → Effect} (hf : ∀ x, (f x).shows = true) (xs : List α) :
    (∀ e ∈ xs.map f, e.shows = false) ↔ xs = [] := by
  cases xs with
  | nil => simp
  | cons x xs => simp [hf]

theorem bridgePubHandler_eq_nil_iff (w : Work) :
    bridgePubHandler nng w conf = [] ↔
      (w.packet.topicLen > 4 ∧ w.packet.startsSys = true) ∨
        NoForward nng w.packet conf.bridgeNodes := by
  unfold bridgePubHandler
  split_ifs with hsys
  · exact iff_of_true rfl (Or.inl hsys)
  · rw [bridgeNodes_eq_nil_iff, or_iff_right hsys]
    rfl

theorem nngPubHandler_eq_nil_iff (w : Work) :
    nngPubHandler nng w conf = [] ↔
      (w.packet.topicLen ≥ 4 ∧ w.packet.startsSys = true) ∨
        ∀ node ∈ conf.nngPubNodes, ∀ e ∈ node,
          nng.topicFilter e.localTopic w.packet.topicBody = false := by
  unfold nngPubHandler
  split_ifs with hsys
  · exact iff_of_true rfl (Or.inl hsys)
  · rw [or_iff_right hsys]
    simp

theorem bridgeEffects_silent_iff (env : StepEnv) (w : Work) :
    (∀ e ∈ bridgeEffects nng conf env w, e.shows = false) ↔
      (conf.bridgeMode = true →
        (w.packet.topicLen > 4 ∧ w.packet.startsSys = true) ∨
          NoForward nng w.packet conf.bridgeNodes) ∧
      (conf.bridgeMode = true → conf.build.awsBridge = true →
        NoForward nng w.packet conf.awsNodes) := by
  unfold bridgeEffects
  cases conf.bridgeMode with
  | false => simp
  | true =>
    have hb := map_silent_iff (f := .bridgeForward) (fun _ => rfl) (bridgePubHandler nng w conf)
    have ha := map_silent_iff (f := .awsForward) (fun _ => rfl)
      (awsBridgeForward nng w env.loopOk conf)
    rw [bridgePubHandler_eq_nil_iff] at hb
    rw [awsBridgeForward, awsNodes_eq_nil_iff] at ha
    rw [if_pos rfl, List.forall_mem_append, hb]
    cases conf.build.awsBridge with
    | false => simp
    | true =>
      rw [if_pos rfl, awsBridgeForward, ha]
      simp [NoForward]

theorem nngEffects_silent_iff (w : Work) :
    (∀ e ∈ nngEffects nng conf w, e.shows = false) ↔
      (conf.nngPubEnable = true → (w.packet.topicLen ≥ 4 ∧ w.packet.startsSys = true) ∨
        ∀ node ∈ conf.nngPubNodes, ∀ e ∈ node,
          nng.topicFilter e.localTopic w.packet.topicBody = false) := by
  unfold nngEffects
  cases conf.nngPubEnable with
  | false => simp
  | true =>
    rw [if_pos rfl, map_silent_iff (f := .nngForward) (fun _ => rfl), nngPubHandler_eq_nil_iff]
    simp

theorem forwardEffects_silent_iff (env : StepEnv) (w : Work) :
    (∀ e ∈ bridgeEffects nng conf env w ++ nngEffects nng conf w, e.shows = false) ↔
      SilentForward nng conf w.packet := by
  rw [List.forall_mem_append, bridgeEffects_silent_iff, nngEffects_silent_iff]
  constructor
  · rintro ⟨⟨hbridge, haws⟩, hproxy⟩
    exact ⟨hbridge, haws, hproxy⟩
  · rintro ⟨hbridge, haws, hproxy⟩
    exact ⟨⟨hbridge, haws⟩, hproxy⟩

end Forward

end NanoMQ
