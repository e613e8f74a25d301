import NanoMQ.SubHistory

/-!
# Transparent bridging

What the clients subscribe to and take back is asked for at the remote brokers as well.
`bridge_sub_handler` walks the nodes of the packet after the tables were changed, and makes one
request for each of them at every enabled transparent bridge. It does not look at the reason code
that `sub_ctx_handle` has left in a node. The requests of a step are kept apart from its log.
-/

namespace NanoMQ

open ByteBuffer

inductive Upstream
  /-- `nng_mqtt_subscribe_async`. -/
  | subscribe (node : ℕ) (topic : Option Bytes) (len : ℤ) (options : SubOptions)
  /-- `nng_mqtt_unsubscribe_async`. -/
  | unsubscribe (node : ℕ) (topic : Option Bytes) (len : Option ℕ)
  deriving DecidableEq, Repr

/-- The packet of a work that `bridge_sub_handler` takes, by the flag of the work. -/
inductive BridgedPacket
  | sub (nodes : List TopicNode)
  | unsub (filters : List (Option Bytes × Option ℕ))
  | other

section Handler

variable (conf : Conf)

def transparentNodes : List ℕ :=
  conf.bridgeNodes.zipIdx.filterMap (fun p => if p.1.enable && p.1.transparent then some p.2
    else none)

/-- The request for a node of a SUBSCRIBE, with `no_local` set in any case. -/
def TopicNode.upstream (tn : TopicNode) (i : ℕ) : Upstream :=
  .subscribe i tn.topicBody tn.topicLen { tn.options with noLocal := true }

def bridgeSubHandler : BridgedPacket → List Upstream
  | .sub nodes => nodes.flatMap (fun tn => (transparentNodes conf).map tn.upstream)
  | .unsub filters =>
      filters.flatMap (fun q => (transparentNodes conf).map (fun i => .unsubscribe i q.1 q.2))
  | .other => []

end Handler

section Step

variable (nng : Nng) (conf : Conf) (st : Store) (x : Intake)

/-- A SUBSCRIBE is handled and no code is left that closes the work. -/
def Intake.Handled : Prop :=
  (x.decodeSub nng).code = ReasonCode.success ∧ (x.handleSub nng conf st).1 = 0 ∧
    x.work.code = ReasonCode.success

instance : Decidable (x.Handled nng conf st) := inferInstanceAs (Decidable (_ ∧ _ ∧ _))

/-- What `server_cb` hands to `bridge_sub_handler`: a SUBSCRIBE only where it is handled, an
UNSUBSCRIBE in any case. -/
def Intake.bridged : BridgedPacket :=
  match x.msg.cmdType with
  | .subscribe =>
      if x.Handled nng conf st then .sub (x.handleSub nng conf st).2.nodes else .other
  | .unsubscribe => .unsub (unsubscribe nng x.version x.msg.pipe x.msg st).filters
  | _ => .other

def Intake.upstream : List Upstream := bridgeSubHandler conf (x.bridged nng conf st)

/-- Whatever is asked for upstream has a code below `0x80` in the answer. -/
def UpstreamGranted : Prop :=
  ∀ i topic len options, .subscribe i topic len options ∈ x.upstream nng conf st →
    ∀ tn ∈ (x.handleSub nng conf st).2.nodes, tn.topicBody = topic → tn.subackCode < 0x80

end Step

section Handled

variable {nng : Nng} {conf : Conf} {st : Store} {x : Intake}

theorem state_recvSubscribe (h : SubHandlers) (env : StepEnv) (s : Sys) :
    (recvSubscribe h env s).work.state = .send ↔
      (h.subscribe env s).1 = 0 ∧ (h.subscribe env s).2.work.code = ReasonCode.success := by
  unfold recvSubscribe
  obtain ⟨rv, s'⟩ := h.subscribe env s
  by_cases hrv : rv = 0
  · by_cases hcode : s'.work.code = ReasonCode.success <;> simp [hrv, hcode, Sys.goto]
  · have hrv' : rv ≠ ReasonCode.success := hrv
    simp [hrv, hrv', Sys.goto]

/-- The bridges get a SUBSCRIBE exactly where the work goes on to send its answer. -/
theorem state_run_subscribe_iff (junk : UInt8) (hk : x.msg.cmdType = .subscribe) :
    (x.run nng conf junk st).work.state = .send ↔ x.Handled nng conf st := by
  rw [Intake.run_subscribe hk, state_recvSubscribe]
  change (subscribeStep nng conf x.stepEnv (x.loaded st)).1 = 0 ∧
    (subscribeStep nng conf x.stepEnv (x.loaded st)).2.work.code = _ ↔ _
  by_cases hok : (x.decodeSub nng).code = ReasonCode.success
  · have hcode : (answerSub nng conf x.stepEnv (x.decodeSub nng).packet (x.loaded st)).1 =
        (x.handleSub nng conf st).1 := by
      unfold answerSub
      dsimp only
      split_ifs with hgo
      · rfl
      · exact (not_not.mp (not_or.mp hgo).1).symm
    rw [Intake.subscribeStep_decoded hok, hcode, Intake.work_answerSub]
    exact (and_iff_right hok).symm
  · rw [Intake.subscribeStep_failed hok]
    exact iff_of_false (fun h => hok h.1) (fun h => hok h.1)

theorem mem_upstream_iff (hk : x.msg.cmdType = .subscribe) (hh : x.Handled nng conf st)
    (u : Upstream) :
    u ∈ x.upstream nng conf st ↔
      ∃ tn ∈ (x.handleSub nng conf st).2.nodes, ∃ i ∈ transparentNodes conf, tn.upstream i = u := by
  rw [Intake.upstream, Intake.bridged, hk]
  dsimp only
  rw [if_pos hh]
  simp only [bridgeSubHandler, List.mem_flatMap, List.mem_map]

/-- A packet that is not handled reaches no bridge. -/
theorem upstream_of_not_handled (hk : x.msg.cmdType = .subscribe)
    (hh : ¬ x.Handled nng conf st) : x.upstream nng conf st = [] := by
  rw [Intake.upstream, Intake.bridged, hk]
  dsimp only
  rw [if_neg hh]
  rfl

theorem upstreamGranted_iff_codes (hk : x.msg.cmdType = .subscribe)
    (hh : x.Handled nng conf st) (htrans : transparentNodes conf ≠ []) :
    UpstreamGranted nng conf st x ↔
      ∀ tn ∈ (x.handleSub nng conf st).2.nodes, tn.subackCode < 0x80 := by
  constructor
  · intro hgranted tn htn
    obtain ⟨i, hi⟩ := List.exists_mem_of_ne_nil _ htrans
    have hmem : tn.upstream i ∈ x.upstream nng conf st :=
      (mem_upstream_iff hk hh _).mpr ⟨tn, htn, i, hi, rfl⟩
    exact hgranted _ _ _ _ hmem tn htn rfl
  · intro hall i topic len options _ tn htn _
    exact hall tn htn

end Handled

section Codes

variable {nng : Nng} {conf : Conf} {cparam : Option ConnParam} {tn : TopicNode}

/-- A node with the default code is answered by its quality of service. -/
theorem subackCode_lt_of_default (hcode : tn.reasonCode = ReasonCode.grantedQos2) :
    tn.subackCode < 0x80 := by
  have hqos := tn.options.qos.isLt
  rw [TopicNode.subackCode, if_pos hcode, UInt8.lt_iff_toNat_lt, UInt8.toNat_ofNat']
  change _ < 128
  omega

theorem subackCode_aclMarked_lt_iff (herr : 0x80 ≤ nng.authSubError)
    (hcode : tn.reasonCode = ReasonCode.grantedQos2)
    (hnul : ∀ f, tn.topicBody = some f → (0 : UInt8) ∉ f) :
    (aclMarked nng conf cparam tn).subackCode < 0x80 ↔
      ∀ f, tn.topicBody = some f → subAclDenies nng conf cparam f = false := by
  unfold aclMarked
  split_ifs with hdeny
  · obtain ⟨hsome, hnone⟩ := hdeny
    obtain ⟨f, hf⟩ := Option.isSome_iff_exists.mp hsome
    rw [subackCode_rejected herr]
    apply iff_of_false (UInt8.not_lt.mpr herr)
    intro hall
    rw [(allowedFilter_eq_some_iff hnul).mpr ⟨hf, hall f hf⟩] at hnone
    cases hnone
  · apply iff_of_true (subackCode_lt_of_default hcode)
    intro f hf
    obtain ⟨g, hg⟩ := Option.ne_none_iff_exists'.mp (fun hn => hdeny ⟨by rw [hf]; rfl, hn⟩)
    obtain ⟨hbody, hallow⟩ := (allowedFilter_eq_some_iff hnul).mp hg
    rw [hf] at hbody
    rwa [Option.some.inj hbody]

end Codes

/-- With a transparent bridge, the filters of a SUBSCRIBE that are asked for upstream were all
granted to the client exactly when the packet goes no further than to close the work, or neither
the HTTP authorization refuses it nor the access control denies one of its filters. -/
theorem upstream_granted_iff {nng : Nng} (hlaw : nng.LawfulStr) (hset : nng.SetsPayload)
    (herr : 0x80 ≤ nng.authSubError) {conf : Conf} (htrans : transparentNodes conf ≠ [])
    (st : Store) {x : Intake} (hk : x.msg.cmdType = .subscribe) :
    UpstreamGranted nng conf st x ↔
      ((x.decodeSub nng).code ≠ ReasonCode.success ∨ x.work.code ≠ ReasonCode.success) ∨
        subHttpRejects conf x.env.pub = false ∧
          ∀ tn ∈ (x.decodeSub nng).packet.node, ∀ f, tn.topicBody = some f →
            subAclDenies nng conf x.msg.connParam f = false := by
  by_cases hopen : (x.decodeSub nng).code = ReasonCode.success ∧ x.work.code = ReasonCode.success
  · obtain ⟨hok, hcode⟩ := hopen
    obtain ⟨hid, hne, hnodes⟩ := decodeSub_nodes hlaw hset hok
    have hh : x.Handled nng conf st := ⟨hok, code_subCtxHandle hne hid, hcode⟩
    have hclosed : ¬ ((x.decodeSub nng).code ≠ ReasonCode.success ∨
        x.work.code ≠ ReasonCode.success) := not_or.mpr ⟨not_not.mpr hok, not_not.mpr hcode⟩
    rw [upstreamGranted_iff_codes hk hh htrans, or_iff_right hclosed, Intake.handleSub,
      nodes_subCtxHandle hne hid, List.forall_mem_map]
    cases hrej : subHttpRejects conf x.env.pub with
    | true =>
      apply iff_of_false
      · intro hall
        obtain ⟨tn, htn⟩ := List.exists_mem_of_ne_nil _ hne
        have hlt := hall tn htn
        rw [if_pos rfl, subackCode_rejected herr] at hlt
        exact absurd herr (UInt8.not_le.mpr hlt)
      · rintro ⟨⟨⟩, -⟩
    | false =>
      rw [and_iff_right rfl]
      apply forall₂_congr
      intro tn htn
      rw [if_neg Bool.false_ne_true]
      exact subackCode_aclMarked_lt_iff herr (hnodes tn htn).reasonCode (hnodes tn htn).nul
  · have hh : ¬ x.Handled nng conf st := fun hh => hopen ⟨hh.1, hh.2.2⟩
    apply iff_of_true
    · intro i topic len options hmem
      rw [upstream_of_not_handled hk hh] at hmem
      cases hmem
    · exact Or.inl (not_and_or.mp hopen)

def transparentConf : Conf :=
  { Conf.bare with
    aclEnable := true, aclNomatch := .deny
    aclRules := [⟨.allow, .sub, .field .username .all, [ascii "a"]⟩]
    bridgeMode := true, bridgeNodes := [⟨true, ProtoVer.v311, [], [], true⟩] }

theorem upstream_granted_allowed :
    let x := Intake.ofMsg (simpleSubscribe [0, 1, 0x61, 1]) 0
    UpstreamGranted Nng.reference transparentConf Store.empty x ∧
      x.upstream Nng.reference transparentConf Store.empty =
        [.subscribe 0 (some (ascii "a")) 1 ⟨1, true, false, 0⟩] := by
  intro x
  have hiff := @upstream_granted_iff Nng.reference Reference.lawfulStr Reference.setsPayload
    (by decide) transparentConf (by decide) Store.empty x rfl
  exact ⟨hiff.mpr (Or.inr ⟨rfl, by decide⟩), by decide⟩

/-- The second of two filters is refused to the client and asked for upstream all the same. -/
theorem upstream_asks_for_denied :
    let x := Intake.ofMsg (simpleSubscribe [0, 1, 0x61, 1, 0, 1, 0x62, 0]) 0
    (x.handleSub Nng.reference transparentConf Store.empty).2.nodes.map TopicNode.subackCode =
        [1, 0x87] ∧
      x.upstream Nng.reference transparentConf Store.empty =
        [.subscribe 0 (some (ascii "a")) 1 ⟨1, true, false, 0⟩,
          .subscribe 0 (some (ascii "b")) 1 ⟨0, true, false, 0⟩] ∧
      ¬ UpstreamGranted Nng.reference transparentConf Store.empty x := by
  intro x
  have hup : x.upstream Nng.reference transparentConf Store.empty =
      [.subscribe 0 (some (ascii "a")) 1 ⟨1, true, false, 0⟩,
        .subscribe 0 (some (ascii "b")) 1 ⟨0, true, false, 0⟩] := by decide
  refine ⟨by decide, hup, fun hgranted => ?_⟩
  have hmem : .subscribe 0 (some (ascii "b")) 1 ⟨0, true, false, 0⟩ ∈
      x.upstream Nng.reference transparentConf Store.empty := by
    rw [hup]
    exact List.mem_cons_of_mem _ List.mem_cons_self
  have hcodes := hgranted _ _ _ _ hmem
  revert hcodes
  decide

end NanoMQ
