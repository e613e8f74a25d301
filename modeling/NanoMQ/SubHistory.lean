import NanoMQ.ClientHistory
import NanoMQ.SubHandling
import NanoMQ.Unsuback

/-!
# Histories of subscriptions

Clients subscribe, unsubscribe and are lost, in any order, and each message is taken up by some work
in one step. A set of subscriptions follows these events: an entry of a SUBSCRIBE that is accepted
adds one, a filter of an UNSUBSCRIBE removes one, and a lost connection removes those of its pipe.
Both tables of the broker stand for this set after every history.
-/

namespace NanoMQ

open ByteBuffer BindingHistory

section Events

variable (nng : Nng) (conf : Conf)

/-- An entry for the filter was accepted: the packet was decoded, the HTTP authorization did not
refuse it, and the access control does not deny the filter. -/
structure Subscribes (x : Intake) (p : ℕ) (f : Bytes) : Prop where
  kind : x.msg.cmdType = .subscribe
  pipe : x.msg.pipe = p
  decoded : (x.decodeSub nng).code = ReasonCode.success
  authorized : subHttpRejects conf x.env.pub = false
  entry : ∃ tn ∈ (x.decodeSub nng).packet.node, tn.topicBody = some f
  allowed : subAclDenies nng conf x.msg.connParam f = false

structure Unsubscribes (x : Intake) (p : ℕ) (f : Bytes) : Prop where
  kind : x.msg.cmdType = .unsubscribe
  pipe : x.msg.pipe = p
  entry : ∃ id block fs, UnsubscribeLayout nng x.msg x.version id block fs ∧ f ∈ fs

structure Disconnects (x : Intake) (p : ℕ) : Prop where
  kind : x.msg.cmdType = .disconnectEv
  pipe : x.msg.pipe = p

inductive SubEvent (x : Intake) : Prop
  | subscribe (kind : x.msg.cmdType = .subscribe)
  | unsubscribe {id : ℕ} {block : Bytes} {fs : List Bytes} (kind : x.msg.cmdType = .unsubscribe)
      (layout : UnsubscribeLayout nng x.msg x.version id block fs)
  | disconnect (kind : x.msg.cmdType = .disconnectEv)

/-- The event takes a subscription back. An empty filter is not looked at. -/
def Removes (x : Intake) (s : ℕ × Bytes) : Prop :=
  (s.2 ≠ [] ∧ Unsubscribes nng x s.1 s.2) ∨ Disconnects x s.1

def subsAfter (subs : Set (ℕ × Bytes)) (x : Intake) : Set (ℕ × Bytes) :=
  {s | Subscribes nng conf x s.1 s.2 ∨ s ∈ subs ∧ ¬ Removes nng x s}

def runSubs (junk : UInt8) (st : Store) (xs : List Intake) : Store :=
  xs.foldl (fun st x => (x.run nng conf junk st).store) st

end Events

section Subscribe

variable {nng : Nng} {conf : Conf} {st : Store} {x : Intake} {subs : Set (ℕ × Bytes)}

theorem Entries.exists_entryAt {ver : ProtoVer} {payload : Bytes} {pos : ℕ} {es : List SubEntry}
    (h : Entries nng ver payload pos es) : ∀ e ∈ es, ∃ pos, EntryAt nng ver payload pos e := by
  induction h with
  | stop used => exact fun e he => absurd he List.not_mem_nil
  | entry head tail ih =>
    intro e he
    rcases List.mem_cons.mp he with rfl | he
    · exact ⟨_, head⟩
    · exact ih e he

theorem Entries.utf8 {ver : ProtoVer} {payload : Bytes} {pos : ℕ} {es : List SubEntry}
    (h : Entries nng ver payload pos es) : ∀ e ∈ es, nng.utf8Check e.filter = true := by
  intro e he
  obtain ⟨pos, hat⟩ := h.exists_entryAt e he
  rw [hat.filter]
  exact hat.str.2

theorem Entries.filter_ne {ver : ProtoVer} {payload : Bytes} {pos : ℕ} {es : List SubEntry}
    (h : Entries nng ver payload pos es) : ∀ e ∈ es, e.filter ≠ [] := by
  intro e he
  obtain ⟨pos, hat⟩ := h.exists_entryAt e he
  exact hat.nonempty

/-- A node as the decoder leaves it: the default code, and a filter that is a plain string. -/
structure DecodedNode (tn : TopicNode) : Prop where
  reasonCode : tn.reasonCode = ReasonCode.grantedQos2
  topicLen : ∀ f, tn.topicBody = some f → tn.topicLen = f.length
  filter_ne : ∀ f, tn.topicBody = some f → f ≠ []
  nul : ∀ f, tn.topicBody = some f → (0 : UInt8) ∉ f

theorem decodeSub_nodes (hlaw : nng.LawfulStr) (hset : nng.SetsPayload)
    (hok : (x.decodeSub nng).code = ReasonCode.success) :
    (x.decodeSub nng).packet.packetId ≠ 0 ∧ (x.decodeSub nng).packet.node ≠ [] ∧
      ∀ tn ∈ (x.decodeSub nng).packet.node, DecodedNode tn := by
  obtain ⟨es, hes⟩ := (decodeSubMsg_success_iff hlaw (hset x.msg)).mp hok
  obtain ⟨reads, heq⟩ := hes.decodeSubMsg_eq hlaw (hset x.msg)
  unfold Intake.decodeSub Intake.version
  rw [heq]
  dsimp only
  rw [packetId_subHeader]
  refine ⟨hes.packetId, ?_, ?_⟩
  · cases es <;> exact List.cons_ne_nil _ _
  · intro tn htn
    cases es with
    | nil =>
      obtain rfl := List.mem_singleton.mp htn
      exact ⟨rfl, by rintro f ⟨⟩, by rintro f ⟨⟩, by rintro f ⟨⟩⟩
    | cons e es =>
      obtain ⟨e', he', rfl⟩ := List.mem_map.mp htn
      refine ⟨rfl, ?_, ?_, ?_⟩
      · rintro f ⟨⟩
        rfl
      · rintro f ⟨⟩
        exact hes.entries.filter_ne e' he'
      · rintro f ⟨⟩
        exact hlaw.utf8_no_nul _ (hes.entries.utf8 e' he')

theorem allowedFilter_eq_some_iff {cparam : Option ConnParam} {tn : TopicNode}
    (hnul : ∀ f, tn.topicBody = some f → (0 : UInt8) ∉ f) {f : Bytes} :
    allowedFilter nng conf cparam tn = some f ↔
      tn.topicBody = some f ∧ subAclDenies nng conf cparam f = false := by
  unfold allowedFilter
  cases hbody : tn.topicBody with
  | none => exact iff_of_false (by rintro ⟨⟩) (by rintro ⟨⟨⟩, -⟩)
  | some g =>
    rw [Option.bind_some, cstr_of_not_mem (hnul g hbody), Option.some.injEq]
    constructor
    · intro h
      split_ifs at h with hdeny
      obtain rfl := Option.some.inj h
      exact ⟨rfl, Bool.eq_false_iff.mpr hdeny⟩
    · rintro ⟨rfl, hallow⟩
      rw [hallow, if_neg Bool.false_ne_true]

theorem represents_subscribe (hlaw : nng.LawfulStr) (hset : nng.SetsPayload) (junk : UInt8)
    (hk : x.msg.cmdType = .subscribe) (h : Represents st subs) :
    Represents (x.run nng conf junk st).store
      (subs ∪ {s | Subscribes nng conf x s.1 s.2}) := by
  have hnone : (∀ p f, ¬ Subscribes nng conf x p f) →
      subs ∪ {s | Subscribes nng conf x s.1 s.2} = subs := fun hno =>
    (Set.union_eq_left).mpr (fun s hs => absurd hs (hno s.1 s.2))
  by_cases hok : (x.decodeSub nng).code = ReasonCode.success
  · rw [Intake.store_run_subscribe hk hok]
    obtain ⟨hid, hne, hnodes⟩ := decodeSub_nodes hlaw hset hok
    unfold Intake.handleSub subCtxHandle
    rw [if_neg hne, if_neg hid]
    split_ifs with hrej
    · rwa [hnone (fun p f hs => by have := hs.authorized; rw [hrej] at this; cases this)]
    · have hsame : {s | Subscribes nng conf x s.1 s.2} = allowedSubs nng conf x.msg.connParam
          x.msg.pipe (x.decodeSub nng).packet.node := by
        ext ⟨p, f⟩
        constructor
        · rintro ⟨-, hp, -, -, ⟨tn, htn, hf⟩, hallow⟩
          exact ⟨hp.symm, tn, htn, (allowedFilter_eq_some_iff
            (hnodes tn htn).nul).mpr ⟨hf, hallow⟩⟩
        · rintro ⟨hp, tn, htn, hf⟩
          obtain ⟨hbody, hallow⟩ := (allowedFilter_eq_some_iff
            (hnodes tn htn).nul).mp hf
          exact ⟨hk, hp.symm, hok, Bool.eq_false_iff.mpr hrej, ⟨tn, htn, hbody⟩, hallow⟩
      rw [hsame]
      exact represents_foldl_subEntryStep _ h
  · rw [Intake.store_run_failed hk hok, hnone (fun p f hs => hok hs.decoded)]
    exact h

end Subscribe

section Unsubscribe

variable {nng : Nng} {conf : Conf} {st : Store} {subs : Set (ℕ × Bytes)} {pid : ℕ}

theorem represents_afterUnsub (h : Represents st subs) (f : Bytes) :
    Represents (st.afterUnsub pid f) {s ∈ subs | ¬ (s.1 = pid ∧ s.2 = f ∧ f ≠ [])} := by
  unfold Store.afterUnsub
  split_ifs with hf
  · have hsame : {s ∈ subs | ¬ (s.1 = pid ∧ s.2 = f ∧ f ≠ [])} = subs :=
      Set.sep_eq_self_iff_mem_true.mpr (fun s _ hs => hs.2.2 hf)
    rwa [hsame]
  · have hsame : {s ∈ subs | ¬ (s.1 = pid ∧ s.2 = f ∧ f ≠ [])} = subs \ {(pid, f)} := by
      ext ⟨p, g⟩
      simp [hf]
    rw [hsame]
    exact h.subCtxDel

theorem represents_foldl_afterUnsub (h : Represents st subs) (fs : List Bytes) :
    Represents (fs.foldl (Store.afterUnsub pid) st)
      {s ∈ subs | ¬ (s.1 = pid ∧ s.2 ∈ fs ∧ s.2 ≠ [])} := by
  induction fs generalizing st subs with
  | nil =>
    have hsame : {s ∈ subs | ¬ (s.1 = pid ∧ s.2 ∈ ([] : List Bytes) ∧ s.2 ≠ [])} = subs :=
      Set.sep_eq_self_iff_mem_true.mpr (fun s _ hs => List.not_mem_nil hs.2.1)
    rwa [hsame]
  | cons f fs ih =>
    have hsame : {s ∈ subs | ¬ (s.1 = pid ∧ s.2 ∈ f :: fs ∧ s.2 ≠ [])} =
        {s ∈ {s ∈ subs | ¬ (s.1 = pid ∧ s.2 = f ∧ f ≠ [])} |
          ¬ (s.1 = pid ∧ s.2 ∈ fs ∧ s.2 ≠ [])} := by
      ext ⟨p, g⟩
      simp only [Set.mem_ofPred_eq, List.mem_cons]
      grind
    rw [List.foldl_cons, hsame]
    exact ih (represents_afterUnsub h f)

end Unsubscribe

section Disconnect

variable {nng : Nng} {conf : Conf} {st : Store} {subs : Set (ℕ × Bytes)}

theorem dbhash_handlePubRetain (env : PubEnv) (topic : Bytes) (s : PubState) :
    (handlePubRetain nng conf env topic s).store.dbhash = s.store.dbhash := by
  unfold handlePubRetain handlePubRetainSqlite
  rcases retainMsg nng env s with ⟨_ | m, pkt⟩ <;> split_ifs <;> rfl

/-- Publishing an event leaves the subscriptions alone. -/
theorem represents_event (h : Represents st subs) (env : PubEnv) (w : Work) :
    Represents (handlePub nng conf env ProtoVer.v311 true st w).2.store subs := by
  have hkeep : ∀ {o t}, resolve nng conf env ProtoVer.v311 true (pubStart st w) = (o, t) →
      t.store = st := fun hres =>
    store_resolve_of_keeps (Or.inr rfl) (fun a topic hb => absurd hb.version (by decide)) hres
  rcases handlePub_cases nng conf env ProtoVer.v311 true st w with
    ⟨c, t, hres, heq⟩ | ⟨t, hres, -, heq⟩ | ⟨t, hres, -, heq⟩
  · rwa [heq, hkeep hres]
  · rwa [heq, hkeep hres]
  · rw [heq, routeStep_eq]
    have hst := hkeep hres
    apply h.congr
    · rw [(frame_handlePubRetain nng conf env t.topic (routed nng t)).db]
      exact congrArg Store.db hst
    · rw [dbhash_handlePubRetain]
      exact congrArg Store.dbhash hst

theorem represents_disconnect {x : Intake} (junk : UInt8) (hk : x.msg.cmdType = .disconnectEv)
    (h : Represents st subs) :
    Represents (x.run nng conf junk st).store {s ∈ subs | s.1 ≠ x.msg.pipe} := by
  obtain ⟨w, hstore⟩ := store_recvDisconnect nng conf x.stepEnv x.msg (x.loaded st)
  rw [Intake.run_disconnect hk, hstore]
  exact ((represents_event h x.stepEnv.pub w).destroySubClient).congr rfl rfl

end Disconnect

section History

variable {nng : Nng} (hlaw : nng.LawfulStr) (htext : nng.LawfulText) (hset : nng.SetsPayload)
  (conf : Conf) (junk : UInt8)

include hlaw htext hset

/-- The tables follow the set of subscriptions through one event. -/
theorem represents_run {st : Store} {subs : Set (ℕ × Bytes)} (h : Represents st subs) {x : Intake}
    (hx : SubEvent nng x) :
    Represents (x.run nng conf junk st).store (subsAfter nng conf subs x) := by
  cases hx with
  | subscribe hk =>
    have hsame : subsAfter nng conf subs x = subs ∪ {s | Subscribes nng conf x s.1 s.2} := by
      ext s
      have hno : ¬ Removes nng x s := by
        rintro (⟨-, hu⟩ | hd)
        · exact absurd (hk.symm.trans hu.kind) (by decide)
        · exact absurd (hk.symm.trans hd.kind) (by decide)
      exact ⟨fun hs => hs.symm.imp And.left id, fun hs => hs.symm.imp id (fun hs => ⟨hs, hno⟩)⟩
    rw [hsame]
    exact represents_subscribe hlaw hset junk hk h
  | @unsubscribe id block fs hk hlay =>
    have hsame : subsAfter nng conf subs x =
        {s ∈ subs | ¬ (s.1 = x.msg.pipe ∧ s.2 ∈ fs ∧ s.2 ≠ [])} := by
      ext s
      have hrem : Removes nng x s ↔ s.1 = x.msg.pipe ∧ s.2 ∈ fs ∧ s.2 ≠ [] := by
        constructor
        · rintro (⟨hne, -, hp, id', block', fs', hlay', hmem⟩ | hd)
          · rw [(hlay.unique hlay').2] at hmem
            exact ⟨hp.symm, hmem, hne⟩
          · exact absurd (hk.symm.trans hd.kind) (by decide)
        · rintro ⟨hp, hmem, hne⟩
          exact Or.inl ⟨hne, hk, hp.symm, id, block, fs, hlay, hmem⟩
      have hadd : ¬ Subscribes nng conf x s.1 s.2 := fun hs =>
        absurd (hk.symm.trans hs.kind) (by decide)
      exact (or_iff_right hadd).trans (and_congr_right (fun _ => not_congr hrem))
    rw [hsame, Intake.store_run_unsubscribe hk, hlay.store_unsubscribe htext hlaw]
    exact represents_foldl_afterUnsub h fs
  | disconnect hk =>
    have hsame : subsAfter nng conf subs x = {s ∈ subs | s.1 ≠ x.msg.pipe} := by
      ext s
      have hrem : Removes nng x s ↔ s.1 = x.msg.pipe := by
        constructor
        · rintro (⟨-, hu⟩ | hd)
          · exact absurd (hk.symm.trans hu.kind) (by decide)
          · exact hd.pipe.symm
        · intro hp
          exact Or.inr ⟨hk, hp.symm⟩
      have hadd : ¬ Subscribes nng conf x s.1 s.2 := fun hs =>
        absurd (hk.symm.trans hs.kind) (by decide)
      exact (or_iff_right hadd).trans (and_congr_right (fun _ => not_congr hrem))
    rw [hsame]
    exact represents_disconnect junk hk h

/-- And through a history. -/
theorem represents_runSubs {st : Store} {subs : Set (ℕ × Bytes)} (h : Represents st subs)
    {xs : List Intake} (hxs : ∀ x ∈ xs, SubEvent nng x) :
    Represents (runSubs nng conf junk st xs) (xs.foldl (subsAfter nng conf) subs) := by
  induction xs generalizing st subs with
  | nil => exact h
  | cons x xs ih =>
    exact ih (represents_run hlaw htext hset conf junk h (hxs x List.mem_cons_self))
      (fun y hy => hxs y (List.mem_cons_of_mem x hy))

omit htext in
/-- An empty filter is never subscribed to, so it does not matter that it is never removed. -/
theorem mem_foldl_subsAfter_iff (xs : List Intake) (p : ℕ) (f : Bytes) :
    (p, f) ∈ xs.foldl (subsAfter nng conf) ∅ ↔
      Since (fun x => Subscribes nng conf x p f)
        (fun x => ¬ (Unsubscribes nng x p f ∨ Disconnects x p)) xs := by
  rw [holds_foldl_iff (fun subs : Set (ℕ × Bytes) => (p, f) ∈ subs) (fun subs x => Iff.rfl)
    (Set.notMem_empty (p, f)) xs]
  constructor
  · rintro ⟨pre, x, post, rfl, hx, hlater⟩
    obtain ⟨tn, htn, hf⟩ := hx.entry
    have hne := ((decodeSub_nodes hlaw hset hx.decoded).2.2 tn htn).filter_ne f hf
    refine ⟨pre, x, post, rfl, hx, fun y hy hrem => hlater y hy ?_⟩
    exact hrem.imp_left (fun hu => ⟨hne, hu⟩)
  · rintro ⟨pre, x, post, rfl, hx, hlater⟩
    exact ⟨pre, x, post, rfl, hx, fun y hy hrem => hlater y hy (hrem.imp_left And.right)⟩

end History

/-- After every history the two tables agree, and a filter is recorded for a pipe exactly if an
entry for it was accepted and neither was it taken back nor the connection lost since. A SUBSCRIBE
that is not decoded changes neither table. -/
theorem subscription_state {nng : Nng} (hlaw : nng.LawfulStr) (htext : nng.LawfulText)
    (hset : nng.SetsPayload) (conf : Conf) (junk : UInt8) {xs : List Intake}
    (hxs : ∀ x ∈ xs, SubEvent nng x) :
    let st := runSubs nng conf junk Store.empty xs
    (∀ p f, (st.Recorded p f ↔ st.Registered p f) ∧
      (st.Recorded p f ↔ ∃ pre x post, xs = pre ++ x :: post ∧ Subscribes nng conf x p f ∧
        ∀ y ∈ post, ¬ (Unsubscribes nng y p f ∨ Disconnects y p))) ∧
    ∀ x : Intake, x.msg.cmdType = .subscribe → (x.decodeSub nng).code ≠ ReasonCode.success →
      (x.run nng conf junk st).store.db = st.db ∧
        (x.run nng conf junk st).store.dbhash = st.dbhash := by
  intro st
  have hrep := represents_runSubs hlaw htext hset conf junk Represents.empty hxs
  refine ⟨fun p f => ⟨?_, ?_⟩, fun x hk hbad => ?_⟩
  · rw [hrep.recorded p f, hrep.registered p f]
  · rw [hrep.recorded p f]
    exact mem_foldl_subsAfter_iff hlaw hset conf xs p f
  · rw [Intake.store_run_failed hk hbad]
    exact ⟨rfl, rfl⟩

/-- A client subscribes to `a` and `b` and takes the first back. -/
theorem subscription_state_taken_back :
    let xs := [Intake.ofMsg (simpleSubscribe [0, 1, 0x61, 0, 0, 1, 0x62, 0]) 0,
      Intake.ofMsg (simpleUnsubscribe (encodeFilters [ascii "a"])) 0]
    let st := runSubs Nng.reference Conf.bare 0 Store.empty xs
    (∀ p f, st.Recorded p f ↔ st.Registered p f) ∧ st.Registered 0 (ascii "b") ∧
      ¬ st.Registered 0 (ascii "a") := by
  intro xs st
  have hxs : ∀ x ∈ xs, SubEvent Nng.reference x := by
    intro x hx
    rcases List.mem_pair.mp hx with rfl | rfl
    · exact .subscribe rfl
    · exact .unsubscribe rfl (unsubscribeLayout_simple (by decide) (by decide) (by decide))
  have hstate := (subscription_state Reference.lawfulStr Reference.lawfulText
    Reference.setsPayload Conf.bare 0 hxs).1
  exact ⟨fun p f => (hstate p f).1, by decide, by decide⟩

end NanoMQ
