import NanoMQ.BridgeSub
import NanoMQ.WorkCode

/-!
# Subscriptions at the remote broker

A remote broker applies the requests of a transparent bridge in their order. It knows filters and
not the clients behind them, and the requests are not counted: an UNSUBSCRIBE of one client takes a
filter back upstream although another client may still be subscribed to it. Where no UNSUBSCRIBE
does that, whatever a client is subscribed to is subscribed upstream after every history.
-/

namespace NanoMQ

open ByteBuffer

section Remote

def Upstream.filter : Upstream → Option Bytes
  | .subscribe _ topic len _ => topic.map (fun t => t.take len.toNat)
  | .unsubscribe _ topic len => topic.bind (fun t => len.map (fun n => t.take n))

def Upstream.Adds (k : ℕ) (f : Bytes) : Upstream → Prop
  | .subscribe i topic len options => i = k ∧ (subscribe i topic len options).filter = some f
  | .unsubscribe _ _ _ => False

def Upstream.TakesBack (k : ℕ) (f : Bytes) : Upstream → Prop
  | .subscribe _ _ _ _ => False
  | .unsubscribe i topic len => i = k ∧ (unsubscribe i topic len).filter = some f

def applyUpstream (k : ℕ) (remote : List Bytes) : Upstream → List Bytes
  | .subscribe i topic len options =>
      if i = k then (Upstream.subscribe i topic len options).filter.elim remote remote.insert
      else remote
  | .unsubscribe i topic len =>
      if i = k then (Upstream.unsubscribe i topic len).filter.elim remote
        (fun f => remote.filter (· ≠ f))
      else remote

theorem mem_applyUpstream_iff (k : ℕ) (f : Bytes) (remote : List Bytes) (u : Upstream) :
    f ∈ applyUpstream k remote u ↔ u.Adds k f ∨ f ∈ remote ∧ ¬ u.TakesBack k f := by
  cases u with
  | subscribe i topic len options =>
    unfold applyUpstream Upstream.Adds Upstream.TakesBack
    obtain rfl | hi := eq_or_ne i k
    · cases hf : (Upstream.subscribe i topic len options).filter <;> simp [hf, eq_comm]
    · simp [hi]
  | unsubscribe i topic len =>
    unfold applyUpstream Upstream.Adds Upstream.TakesBack
    obtain rfl | hi := eq_or_ne i k
    · cases hf : (Upstream.unsubscribe i topic len).filter with
      | none => simp [hf]
      | some g =>
        have hsym : g = f ↔ f = g := eq_comm
        simp [hf, hsym]
    · simp [hi]

theorem mem_foldl_applyUpstream {k : ℕ} {f : Bytes} {us : List Upstream} {remote : List Bytes}
    (hkeep : ∀ u ∈ us, ¬ u.TakesBack k f) (h : f ∈ remote ∨ ∃ u ∈ us, u.Adds k f) :
    f ∈ us.foldl (applyUpstream k) remote := by
  induction us generalizing remote with
  | nil => simpa using h
  | cons u us ih =>
    obtain ⟨hu, hrest⟩ := List.forall_mem_cons.mp hkeep
    apply ih hrest
    rw [mem_applyUpstream_iff]
    rcases h with hmem | ⟨v, hv, hadds⟩
    · exact Or.inl (Or.inr ⟨hmem, hu⟩)
    · rcases List.mem_cons.mp hv with rfl | hv
      · exact Or.inl (Or.inl hadds)
      · exact Or.inr ⟨v, hv, hadds⟩

end Remote

section Step

variable (nng : Nng) (conf : Conf) (junk : UInt8) (k : ℕ)

def upstreamStep (s : Store × List Bytes) (x : Intake) : Store × List Bytes :=
  ((x.run nng conf junk s.1).store, (x.upstream nng conf s.1).foldl (applyUpstream k) s.2)

def runUpstream (remote : List Bytes) (xs : List Intake) : Store × List Bytes :=
  xs.foldl (upstreamStep nng conf junk k) (Store.empty, remote)

structure SubMessage (x : Intake) : Prop where
  kind : x.msg.cmdType = .subscribe ∨ x.msg.cmdType = .unsubscribe ∨ x.msg.cmdType = .disconnectEv
  work : BrokerWork nng conf junk x.work
  active : x.work.state ≠ .close

/-- If the message is an UNSUBSCRIBE, it is well-formed and names no filter to which another client
is subscribed. -/
def SparesOthers (st : Store) (x : Intake) : Prop :=
  x.msg.cmdType = .unsubscribe → ∃ id block fs,
    UnsubscribeLayout nng x.msg x.version id block fs ∧
      ∀ f ∈ fs, ∀ p, p ≠ x.msg.pipe → ¬ st.Registered p f

def AllSpare : Store → List Intake → Prop
  | _, [] => True
  | st, x :: xs => SparesOthers nng st x ∧ AllSpare (x.run nng conf junk st).store xs

end Step

section Requests

variable {nng : Nng} (hlaw : nng.LawfulStr) {conf : Conf} {k : ℕ} {st : Store} {x : Intake}

theorem topicBody_aclMarked (cparam : Option ConnParam) (tn : TopicNode) :
    (aclMarked nng conf cparam tn).topicBody = tn.topicBody ∧
      (aclMarked nng conf cparam tn).topicLen = tn.topicLen := by
  unfold aclMarked
  split_ifs <;> exact ⟨rfl, rfl⟩

include hlaw

/-- A filter that is subscribed to is asked for at every transparent node. -/
theorem adds_of_subscribes (hset : nng.SetsPayload) (hk : k ∈ transparentNodes conf)
    (hcode : x.work.code = ReasonCode.success) {p : ℕ} {f : Bytes}
    (hsub : Subscribes nng conf x p f) : ∃ u ∈ x.upstream nng conf st, u.Adds k f := by
  obtain ⟨tn, htn, hf⟩ := hsub.entry
  obtain ⟨hid, hne, hnodes⟩ := decodeSub_nodes hlaw hset hsub.decoded
  have hlen := (hnodes tn htn).topicLen f hf
  have hh : x.Handled nng conf st := ⟨hsub.decoded, code_subCtxHandle hne hid, hcode⟩
  have hmarked : (aclMarked nng conf x.msg.connParam tn).topicBody = tn.topicBody ∧
      (aclMarked nng conf x.msg.connParam tn).topicLen = tn.topicLen := topicBody_aclMarked _ tn
  obtain ⟨hbody', hlen'⟩ := hmarked
  have hmem : aclMarked nng conf x.msg.connParam tn ∈ (x.handleSub nng conf st).2.nodes := by
    rw [Intake.handleSub, nodes_subCtxHandle hne hid, hsub.authorized]
    exact List.mem_map_of_mem htn
  refine ⟨_, (mem_upstream_iff hsub.kind hh _).mpr ⟨_, hmem, k, hk, rfl⟩, rfl, ?_⟩
  change (aclMarked nng conf x.msg.connParam tn).topicBody.map _ = some f
  rw [hbody', hlen', hf, hlen]
  simp

omit hlaw in
/-- A SUBSCRIBE takes nothing back. -/
theorem not_takesBack_of_subscribe (hkind : x.msg.cmdType = .subscribe) {f : Bytes} :
    ∀ u ∈ x.upstream nng conf st, ¬ u.TakesBack k f := by
  by_cases hh : x.Handled nng conf st
  · intro u hu
    obtain ⟨tn, -, i, -, rfl⟩ := (mem_upstream_iff hkind hh u).mp hu
    exact id
  · rw [upstream_of_not_handled hkind hh]
    exact fun u hu => absurd hu List.not_mem_nil

omit hlaw in
theorem upstream_disconnect (hkind : x.msg.cmdType = .disconnectEv) :
    x.upstream nng conf st = [] := by
  rw [Intake.upstream, Intake.bridged, hkind]
  rfl

end Requests

section Unsubscribe

variable {nng : Nng} {conf : Conf} {k : ℕ} {st : Store} {x : Intake}

theorem texts_foldl_unsubEntryStep (pid : ℕ) (nodes : List UnsubNode)
    (c : List UnsubNode × Store) :
    (nodes.foldl (unsubEntryStep pid) c).1.map (fun tn => (tn.topicBody, tn.topicLen)) =
      (c.1 ++ nodes).map (fun tn => (tn.topicBody, tn.topicLen)) := by
  induction nodes generalizing c with
  | nil => rw [List.foldl_nil, List.append_nil]
  | cons tn nodes ih =>
    rw [List.foldl_cons, ih]
    unfold unsubEntryStep
    split_ifs <;> simp

theorem exists_nodeOf {fs : List Bytes} {nodes : List UnsubNode}
    (h : List.Forall₂ NodeOf fs nodes) {tn : UnsubNode} (htn : tn ∈ nodes) :
    ∃ f ∈ fs, NodeOf f tn := by
  induction h with
  | nil => cases htn
  | @cons f node fs nodes hf _ ih =>
    rcases List.mem_cons.mp htn with rfl | htn
    · exact ⟨f, List.mem_cons_self, hf⟩
    · obtain ⟨g, hg, hnode⟩ := ih htn
      exact ⟨g, List.mem_cons_of_mem f hg, hnode⟩

/-- What a well-formed UNSUBSCRIBE takes back upstream is one of its filters. -/
theorem mem_of_takesBack (htext : nng.LawfulText) (hkind : x.msg.cmdType = .unsubscribe) {id : ℕ}
    {block : Bytes} {fs : List Bytes} (hlay : UnsubscribeLayout nng x.msg x.version id block fs)
    {u : Upstream} (hu : u ∈ x.upstream nng conf st) {f : Bytes} (hback : u.TakesBack k f)
    (hne : f ≠ []) : f ∈ fs := by
  obtain ⟨nodes, hnodes, heq⟩ := hlay.decodeUnsubMsg_eq htext
  have hfilters : (unsubscribe nng x.version x.msg.pipe x.msg st).filters =
      nodes.map (fun tn => (tn.topicBody, tn.topicLen)) := by
    unfold unsubscribe
    rw [heq]
    dsimp only
    rw [if_neg (not_not.mpr rfl)]
    exact texts_foldl_unsubEntryStep x.msg.pipe nodes ([], st)
  rw [Intake.upstream, Intake.bridged, hkind] at hu
  dsimp only at hu
  rw [hfilters] at hu
  simp only [bridgeSubHandler, List.mem_flatMap, List.mem_map] at hu
  obtain ⟨q, ⟨tn, htn, rfl⟩, i, -, rfl⟩ := hu
  obtain ⟨g, hg, hnode⟩ := exists_nodeOf hnodes htn
  have hfilter : tn.topicBody.bind (fun t => tn.topicLen.map (fun n => t.take n)) = some f :=
    hback.2
  simp only [hnode.topicLen, Option.map_some] at hfilter
  by_cases hnil : g = []
  · obtain ⟨t, -, ht⟩ := Option.bind_eq_some_iff.mp hfilter
    rw [hnil, List.length_nil, List.take_zero] at ht
    exact absurd (Option.some.inj ht).symm hne
  · rw [hnode.topicBody hnil, Option.bind_some, List.take_length] at hfilter
    rwa [← Option.some.inj hfilter]

end Unsubscribe

/-- The tables stand for a set of subscriptions, and each of its filters is subscribed to at the
remote broker. -/
structure KeptUpstream (s : Store × List Bytes) (subs : Set (ℕ × Bytes)) : Prop where
  tables : Represents s.1 subs
  ne_nil : ∀ c ∈ subs, c.2 ≠ []
  remote : ∀ c ∈ subs, c.2 ∈ s.2

section Run

variable {nng : Nng} (hlaw : nng.LawfulStr) (htext : nng.LawfulText) (hset : nng.SetsPayload)
  {conf : Conf} (junk : UInt8) {k : ℕ} (hk : k ∈ transparentNodes conf)

include hlaw htext hset hk

theorem keptUpstream_step {s : Store × List Bytes} {subs : Set (ℕ × Bytes)}
    (h : KeptUpstream s subs) {x : Intake} (hx : SubMessage nng conf junk x)
    (hspare : SparesOthers nng s.1 x) :
    KeptUpstream (upstreamStep nng conf junk k s x) (subsAfter nng conf subs x) := by
  have hcode : x.work.code = ReasonCode.success := hx.work.codeClear.code.resolve_left hx.active
  have hevent : SubEvent nng x := by
    rcases hx.kind with hkind | hkind | hkind
    · exact .subscribe hkind
    · obtain ⟨id, block, fs, hlay, -⟩ := hspare hkind
      exact .unsubscribe hkind hlay
    · exact .disconnect hkind
  refine ⟨represents_run hlaw htext hset conf junk h.tables hevent, ?_, ?_⟩
  · rintro c (hsub | ⟨hmem, -⟩)
    · obtain ⟨tn, htn, hf⟩ := hsub.entry
      exact ((decodeSub_nodes hlaw hset hsub.decoded).2.2 tn htn).filter_ne c.2 hf
    · exact h.ne_nil c hmem
  · rintro ⟨p, f⟩ (hsub | ⟨hmem, hkeep⟩)
    · exact mem_foldl_applyUpstream (not_takesBack_of_subscribe hsub.kind)
        (Or.inr (adds_of_subscribes hlaw hset hk hcode hsub))
    · apply mem_foldl_applyUpstream _ (Or.inl (h.remote _ hmem))
      rcases hx.kind with hkind | hkind | hkind
      · exact not_takesBack_of_subscribe hkind
      · -- a filter taken back upstream is one of the packet, so the subscriber is its sender
        obtain ⟨id, block, fs, hlay, hothers⟩ := hspare hkind
        intro u hu hback
        have hf := mem_of_takesBack htext hkind hlay hu hback (h.ne_nil _ hmem)
        by_cases hp : p = x.msg.pipe
        · exact hkeep (Or.inl ⟨h.ne_nil _ hmem, hkind, hp.symm, id, block, fs, hlay, hf⟩)
        · exact hothers f hf p hp ((h.tables.registered p f).mpr hmem)
      · rw [upstream_disconnect hkind]
        exact fun u hu => absurd hu List.not_mem_nil

/-- And through a history. -/
theorem keptUpstream_foldl {xs : List Intake} {s : Store × List Bytes} {subs : Set (ℕ × Bytes)}
    (h : KeptUpstream s subs) (hxs : ∀ x ∈ xs, SubMessage nng conf junk x)
    (hspare : AllSpare nng conf junk s.1 xs) :
    KeptUpstream (xs.foldl (upstreamStep nng conf junk k) s)
      (xs.foldl (subsAfter nng conf) subs) := by
  induction xs generalizing s subs with
  | nil => exact h
  | cons x xs ih =>
    obtain ⟨hx, hrest⟩ := List.forall_mem_cons.mp hxs
    exact ih (keptUpstream_step hlaw htext hset junk hk h hx hspare.1) hrest hspare.2

end Run

theorem AllSpare.append {nng : Nng} {conf : Conf} {junk : UInt8} {st : Store}
    {xs ys : List Intake} (h : AllSpare nng conf junk st (xs ++ ys)) :
    AllSpare nng conf junk st xs := by
  induction xs generalizing st with
  | nil => trivial
  | cons x xs ih => exact ⟨h.1, ih h.2⟩

/-- In every history whose UNSUBSCRIBE packets are well-formed and name no filter of another client,
a filter to which some client is subscribed is subscribed upstream, in every state on the way. -/
theorem subscriptions_kept_upstream {nng : Nng} (hlaw : nng.LawfulStr) (htext : nng.LawfulText)
    (hset : nng.SetsPayload) {conf : Conf} (junk : UInt8) {k : ℕ} (hk : k ∈ transparentNodes conf)
    (remote : List Bytes) {xs : List Intake} (hxs : ∀ x ∈ xs, SubMessage nng conf junk x)
    (hspare : AllSpare nng conf junk Store.empty xs) :
    ∀ pre post, xs = pre ++ post →
      let s := runUpstream nng conf junk k remote pre
      ∀ p f, s.1.Registered p f → f ∈ s.2 := by
  rintro pre post rfl s p f hreg
  have hstart : KeptUpstream (Store.empty, remote) ∅ :=
    ⟨Represents.empty, fun c hc => hc.elim, fun c hc => hc.elim⟩
  have hkept := keptUpstream_foldl hlaw htext hset junk hk hstart
    (fun x hx => hxs x (List.mem_append_left post hx)) hspare.append
  exact hkept.remote (p, f) ((hkept.tables.registered p f).mp hreg)

def openTransparentConf : Conf :=
  { Conf.bare with bridgeMode := true, bridgeNodes := [⟨true, ProtoVer.v311, [], [], true⟩] }

def subscribeOf (pipe : ℕ) (payload : Bytes) : Intake :=
  Intake.ofMsg { simpleSubscribe payload with pipe := pipe } 0

def unsubscribeA : Intake := Intake.ofMsg (simpleUnsubscribe (encodeFilters [ascii "a"])) 0

theorem subMessages_of_two (payload₁ payload₂ : Bytes) :
    ∀ x ∈ [subscribeOf 0 payload₁, subscribeOf 2 payload₂, unsubscribeA],
      SubMessage Nng.reference openTransparentConf 0 x := by
  simp only [List.forall_mem_cons, List.not_mem_nil, false_imp_iff, implies_true, and_true]
  exact ⟨⟨Or.inl rfl, .alloc, nofun⟩, ⟨Or.inl rfl, .alloc, nofun⟩,
    ⟨Or.inr (Or.inl rfl), .alloc, nofun⟩⟩

/-- One client takes `a` back while the other is subscribed to `b`. -/
theorem other_filter_kept_upstream :
    let xs := [subscribeOf 0 [0, 1, 0x61, 0], subscribeOf 2 [0, 1, 0x62, 0], unsubscribeA]
    let s := runUpstream Nng.reference openTransparentConf 0 0 [] xs
    s.1.Registered 2 (ascii "b") ∧ ascii "b" ∈ s.2 := by
  intro xs s
  have hregistered : ∀ e ∈ (runSubs Nng.reference openTransparentConf 0 Store.empty
      [subscribeOf 0 [0, 1, 0x61, 0], subscribeOf 2 [0, 1, 0x62, 0]]).db,
        e.1 = ascii "a" → e.2 = 0 := by decide
  have hspare : AllSpare Nng.reference openTransparentConf 0 Store.empty xs := by
    refine ⟨nofun, nofun, fun _ => ⟨7, [0], [ascii "a"], ?_, ?_⟩, trivial⟩
    · exact unsubscribeLayout_simple (by decide) (by decide) (by decide)
    · intro f hf p hp hreg
      exact hp (hregistered (f, p) hreg (List.mem_singleton.mp hf))
  have hreg : s.1.Registered 2 (ascii "b") := by decide
  exact ⟨hreg, subscriptions_kept_upstream Reference.lawfulStr Reference.lawfulText
    Reference.setsPayload 0 (k := 0) (by decide) [] (subMessages_of_two _ _) hspare xs []
    (List.append_nil xs).symm 2 _ hreg⟩

/-- Two clients are subscribed to `a`; one of them takes it back, and nothing is left upstream. -/
theorem shared_filter_lost_upstream :
    let xs := [subscribeOf 0 [0, 1, 0x61, 0], subscribeOf 2 [0, 1, 0x61, 0], unsubscribeA]
    let s := runUpstream Nng.reference openTransparentConf 0 0 [] xs
    (∀ x ∈ xs, SubMessage Nng.reference openTransparentConf 0 x) ∧
      s.1.Registered 2 (ascii "a") ∧ ascii "a" ∉ s.2 := by
  intro xs s
  exact ⟨subMessages_of_two _ _, by decide, by decide⟩

end NanoMQ
