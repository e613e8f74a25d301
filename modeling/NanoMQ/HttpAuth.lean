import NanoMQ.PubSteps
import NanoMQ.Reference

/-!
# HTTP authorization of publications

With HTTP authorization on, a message should reach subscribers and the retained store only under a
topic that a granted request asked about. `handle_pub` asks before it resolves the topic alias and
asks nothing when there is no topic queue. A message that names its topic is authorized under that
topic. A message that only carries an alias is routed without a request.
-/

namespace NanoMQ

open ByteBuffer EarlyReturn

structure PubCall where
  env : PubEnv
  work : Work
  deriving DecidableEq, Repr

def PubCall.msg (c : PubCall) : Msg := c.work.msg.getD Msg.alloc

def PubCall.run (nng : Nng) (conf : Conf) (st : Store) (c : PubCall) : PubState :=
  (handlePub nng conf c.env c.work.protoVer false st c.work).2

/-- The states that the calls of a run leave, each on the tables of the one before. -/
def runCalls (nng : Nng) (conf : Conf) : Store → List PubCall → List PubState
  | _, [] => []
  | st, c :: cs => c.run nng conf st :: runCalls nng conf (c.run nng conf st).store cs

/-- Whatever happens under a topic comes after a granted request for exactly that topic. -/
def Authorized (s : PubState) : Prop :=
  ∀ pre a post topic, s.actions = pre ++ a :: post → a.underTopic = some topic →
    .authHttp [topic] true ∈ pre

/-- The message of a client names its topic, and the queue for the request can be made. -/
structure PubCall.NamesTopic (nng : Nng) (c : PubCall) : Prop where
  client : c.work.proto = .mqttBroker
  topic : nng.IsStr c.msg.body 0 (i32 c.msg.body.length)
  nonempty : get16 c.msg.body 0 ≠ 0
  queue : c.env.queueFails = false

theorem authorized_of_frame {s t : PubState} (h : PubFrame s t) (hs : s.actions = []) :
    Authorized t := by
  intro pre a post topic hsplit hunder
  obtain ⟨acts, hacts, hnone⟩ := h.actions
  have hmem : a ∈ acts := by
    rw [hacts, hs, List.nil_append] at hsplit
    rw [hsplit]
    exact List.mem_append_right pre List.mem_cons_self
  rw [hnone a hmem] at hunder
  cases hunder

theorem authorized_of_routed {nng : Nng} {conf : Conf} {env : PubEnv} {s t : PubState}
    (h : PubFrame s t) (hs : s.actions = []) (hgranted : .authHttp [t.topic] true ∈ t.actions) :
    Authorized (routeStep nng conf env t).2 := by
  intro pre a post topic hsplit hunder
  obtain ⟨acts, hacts, -, hall⟩ := actions_routeStep nng conf env t
  obtain ⟨acts₀, hacts₀, hnone⟩ := h.actions
  have hbefore : a ∉ t.actions := by
    intro ha
    rw [hacts₀, hs, List.nil_append] at ha
    rw [hnone a ha] at hunder
    cases hunder
  rw [hacts] at hsplit
  -- The routing comes behind everything that `resolve` did.
  rcases List.append_eq_append_iff.mp hsplit with ⟨mid, hpre, hrest⟩ | ⟨mid, hpre, hrest⟩
  · have ha : a.underTopic = some t.topic := by
      apply hall
      rw [hrest]
      exact List.mem_append_right mid List.mem_cons_self
    obtain rfl : t.topic = topic := Option.some.inj (ha.symm.trans hunder)
    rw [hpre]
    exact List.mem_append_left mid hgranted
  · cases mid with
    | nil =>
      have ha : a.underTopic = some t.topic := by
        apply hall
        rw [List.nil_append] at hrest
        rw [← hrest]
        exact List.mem_cons_self
      obtain rfl : t.topic = topic := Option.some.inj (ha.symm.trans hunder)
      rwa [hpre, List.append_nil] at hgranted
    | cons b mid =>
      obtain ⟨rfl, -⟩ := List.cons.inj hrest
      apply absurd _ hbefore
      rw [hpre]
      exact List.mem_append_right pre List.mem_cons_self

section Call

variable {nng : Nng} {conf : Conf} {env : PubEnv} {proto : ProtoVer}

/-- The topic that the decoder finds at the front of a message. -/
theorem named_of_decoded (hlaw : nng.LawfulStr) {m : Msg}
    (hstr : nng.IsStr m.body 0 (i32 m.body.length)) (hne : get16 m.body 0 ≠ 0)
    (hpub : m.getType = PacketType.publish)
    (hok : (decodePubMessage nng m proto PubPacket.zalloc).code = ReasonCode.success) :
    (decodePubMessage nng m proto PubPacket.zalloc).packet.Named := by
  have hacc := (decodePubMessage_success_iff hpub _).mp hok
  have hlt := get16_lt m.body 0
  rw [hacc.decodePubMessage_eq hpub]
  change u32 (topicStr nng m).len > 0 ∧ (topicStr nng m).dest.isSome = true
  rw [topicStr_of_isStr hlaw hstr]
  dsimp only
  rw [if_neg hne, u32_natCast (by omega)]
  exact ⟨Nat.pos_of_ne_zero hne, rfl⟩

theorem authHttpStep_named {s t : PubState} (hen : conf.authHttpEnable = true)
    (hq : env.queueFails = false) (hn : s.packet.Named) (h : authHttpStep conf env s = (none, t)) :
    t = s.act (.authHttp [s.topic] true) := by
  obtain ⟨x, hx⟩ := Option.isSome_iff_exists.mp hn.2
  have hqueue : topicQueueInit env s.packet.topicBody = some [s.topic] := by
    rw [PubState.topic, hx, topicQueueInit, hq]
    rfl
  rcases authHttpStep_cases h with ⟨-, -, hnone⟩ | ⟨queue, -, hsome, rfl, hgranted⟩
  · rw [hnone hen] at hqueue
    cases hqueue
  · rw [hqueue, Option.some.injEq] at hsome
    split_ifs at hgranted with hg
    rw [← hsome, hg]

/-- A message that names its topic leaves `resolve` with a granted request for it. -/
theorem resolve_authorized (hlaw : nng.LawfulStr) (hen : conf.authHttpEnable = true)
    {st : Store} {c : PubCall} (hc : c.NamesTopic nng) {t : PubState}
    (h : resolve nng conf c.env proto false (pubStart st c.work) = (none, t)) :
    .authHttp [t.topic] true ∈ t.actions := by
  obtain ⟨s₁, s₂, hdec, hpub, hauth, halias, -⟩ := resolve_go h
  have hproto : c.work.proto ≠ .mqttBridge := by
    rw [hc.client]
    decide
  obtain ⟨hcode, hs₁⟩ := decodeStep_go (Or.inl hproto) hdec
  have htype : c.msg.getType = PacketType.publish := by
    rw [hs₁, PubState.packet_setPacket, fixedHeader_decodePubMessage] at hpub
    exact hpub
  have hn : s₁.packet.Named := by
    rw [hs₁]
    exact named_of_decoded hlaw hc.topic hc.nonempty htype hcode
  obtain rfl := authHttpStep_named hen hc.queue hn hauth
  have hpkt : t.packet = s₁.packet := aliasStep_named (s := s₁.act _) hn halias
  have hframe := frame_aliasStep conf proto (s₁.act (.authHttp [s₁.topic] true))
  rw [halias] at hframe
  obtain ⟨acts, hacts, -⟩ := hframe.actions
  have htopic : t.topic = s₁.topic := by rw [PubState.topic, PubState.topic, hpkt]
  rw [hacts, htopic]
  apply List.mem_append_left
  exact List.mem_append_right _ List.mem_cons_self

theorem PubCall.authorized (hlaw : nng.LawfulStr) (hen : conf.authHttpEnable = true) (st : Store)
    {c : PubCall} (hc : c.NamesTopic nng) : Authorized (c.run nng conf st) := by
  unfold PubCall.run
  rcases handlePub_cases nng conf c.env c.work.protoVer false st c.work with
    ⟨code, t, hres, heq⟩ | ⟨t, hres, -, heq⟩ | ⟨t, hres, -, heq⟩
  · rw [heq]
    exact authorized_of_frame (frame_of_resolve hres) rfl
  · rw [heq]
    exact authorized_of_frame (frame_of_resolve hres) rfl
  · rw [heq]
    exact authorized_of_routed (frame_of_resolve hres) rfl (resolve_authorized hlaw hen hc hres)

end Call

/-- In every run of client messages that name their topics, each is authorized under the topic it
is routed and retained under. -/
theorem runCalls_authorized {nng : Nng} (hlaw : nng.LawfulStr) {conf : Conf}
    (hen : conf.authHttpEnable = true) (st : Store) (calls : List PubCall)
    (hcalls : ∀ c ∈ calls, c.NamesTopic nng) :
    ∀ s ∈ runCalls nng conf st calls, Authorized s := by
  induction calls generalizing st with
  | nil => simp [runCalls]
  | cons c cs ih =>
    intro s hs
    rcases List.mem_cons.mp hs with rfl | hs
    · exact c.authorized hlaw hen st (hcalls c List.mem_cons_self)
    · exact ih _ (fun c' hc' => hcalls c' (List.mem_cons_of_mem c hc')) s hs

def clientCall (m : Msg) (env : PubEnv) : PubCall := ⟨env, (Work.alloc .mqttBroker).loadPublish m⟩

/-- A PUBLISH of an MQTT 5 client on pipe `7` that binds `t` to alias 1. -/
def bindAlias : Msg :=
  { Msg.alloc with
    header := [0x30, 7], body := [0, 1, 0x74, 3, 0x23, 0, 1], cmdType := .publish, pipe := 7
    connParam := some { ConnParam.bare with protover := ProtoVer.v5 } }

def useAlias : Msg := { bindAlias with header := [0x30, 6], body := [0, 0, 3, 0x23, 0, 1] }

theorem runCalls_authorized_bindAlias :
    (clientCall bindAlias ⟨false, true, 0⟩).NamesTopic Nng.reference ∧
      ∀ s ∈ runCalls Nng.reference { Conf.bare with authHttpEnable := true, maxTopicAlias := 1 }
        Store.empty [clientCall bindAlias ⟨false, true, 0⟩], Authorized s := by
  have hnames : (clientCall bindAlias ⟨false, true, 0⟩).NamesTopic Nng.reference := by
    constructor <;> decide
  refine ⟨hnames, runCalls_authorized Reference.lawfulStr rfl _ _ fun c hc => ?_⟩
  rwa [List.mem_singleton.mp hc]

/-- The second message is routed under `t` although nothing was asked about it. -/
theorem alias_routed_without_authorization :
    ∃ s ∈ runCalls Nng.reference { Conf.bare with authHttpEnable := true, maxTopicAlias := 1 }
        Store.empty [clientCall bindAlias ⟨false, true, 0⟩,
          clientCall useAlias ⟨false, false, 0⟩],
      s.actions = [.findClients (ascii "t"), .findSharedClients (ascii "t")] ∧ ¬ Authorized s := by
  refine ⟨_, List.mem_cons_of_mem _ List.mem_cons_self, by decide, ?_⟩
  intro h
  have hmem := h [] (.findClients (ascii "t")) [.findSharedClients (ascii "t")] (ascii "t")
    (by decide) rfl
  cases hmem

end NanoMQ
