import NanoMQ.RetainVectors

/-!
# Retained messages of all filters of a SUBSCRIBE

`subVecHandle` is `sub_ctx_handle` with the vectors that it handles. It never uses a vector that was
freed, agrees with `subCtxHandle` on the nodes and the tables, and leaves in `msg_ret` what the
lookups of the filters returned, one after the other: of those that the access control allows, with
a retain handling of 0, or of 1 if the filter is not subscribed yet when its turn comes.
-/

namespace NanoMQ

open ByteBuffer

structure SubVecs where
  nodes : List TopicNode
  store : Store
  vecs : RetainVecs

section Handle

variable (nng : Nng) (conf : Conf) (env : PubEnv) (cparam : Option ConnParam) (pid : ℕ)
  (moves : OwnedHeap (List Msg) → ℕ → Bool) (nullFor : Bytes → Bool)

/-- What a lookup returns: without messages either `NULL` or an empty vector. -/
def foundVec (st : Store) (topic : Bytes) : Option (List Msg) :=
  let ms := findRetain nng conf st topic
  if ms = [] ∧ nullFor topic = true then none else some ms

def retainSqlite : Bool := conf.build.sqlite && conf.sqliteEnable

def collectRetained (found : Option (Option (List Msg))) (s : RetainVecs) : Option RetainVecs :=
  if retainSqlite conf then s.collectSqlite moves found else s.collectTree moves found

def subVecStep (c : SubVecs) (tn : TopicNode) : Option SubVecs :=
  match tn.topicBody with
  | none => some { c with nodes := c.nodes ++ [tn] }
  | some body =>
      let topic := cstr body
      if subAclDenies nng conf cparam topic then
        some { c with nodes := c.nodes ++ [{ tn with reasonCode := nng.authSubError }] }
      else
        let exist := c.store.checkTopic pid topic
        let store := c.store.addSub pid topic
        let rh := tn.options.retainHandling
        let found := if rh = 0 ∨ (rh = 1 ∧ exist = false) then
            some (foundVec nng conf nullFor store topic)
          else none
        (collectRetained conf moves found c.vecs).map (fun v => ⟨c.nodes ++ [tn], store, v⟩)

/-- `sub_ctx_handle`, called with `msg_ret` being `NULL`. -/
def subVecHandle (h₀ : OwnedHeap (List Msg)) (pkt : SubPacket) (st : Store) :
    Option (ReasonCode × SubVecs) :=
  let start : RetainVecs := ⟨h₀, none, none⟩
  if pkt.node = [] then some (0xff, ⟨pkt.node, st, start⟩)
  else if pkt.packetId = 0 then some (0xfe, ⟨pkt.node, st, start⟩)
  else if subHttpRejects conf env then
    some (0, ⟨pkt.node.map (fun tn => { tn with reasonCode := nng.authSubError }), st, start⟩)
  else
    (pkt.node.foldlM (subVecStep nng conf cparam pid moves nullFor) ⟨[], st, start⟩).map
      (fun c => (0, c))

/-- The retained messages that a node asks for, with the tables as they are when it is dealt with.
-/
def nodeRetained (st : Store) (tn : TopicNode) : List Msg :=
  match allowedFilter nng conf cparam tn with
  | none => []
  | some f =>
      if tn.options.retainHandling = 0 ∨
          (tn.options.retainHandling = 1 ∧ st.checkTopic pid f = false) then
        findRetain nng conf (st.addSub pid f) f
      else []

def retainedOf : Store → List TopicNode → List Msg
  | _, [] => []
  | st, tn :: tns =>
      nodeRetained nng conf cparam pid st tn ++
        retainedOf ((allowedFilter nng conf cparam tn).elim st (st.addSub pid)) tns

def packetRetained (pkt : SubPacket) (st : Store) : List Msg :=
  if pkt.packetId = 0 ∨ subHttpRejects conf env = true then []
  else retainedOf nng conf cparam pid st pkt.node

end Handle

section Proofs

variable {nng : Nng} {conf : Conf} {env : PubEnv} {cparam : Option ConnParam} {pid : ℕ}
  {nullFor : Bytes → Bool} {h₀ : OwnedHeap (List Msg)}

theorem foundVec_getD (st : Store) (topic : Bytes) :
    (foundVec nng conf nullFor st topic).getD [] = findRetain nng conf st topic := by
  unfold foundVec
  dsimp only
  split_ifs with hnull
  · rw [hnull.1]
    rfl
  · rfl

/-- The vectors between two nodes; with sqlite the local pointer is not used. -/
structure VecsHold (conf : Conf) (h₀ : OwnedHeap (List Msg)) (s : RetainVecs) (ms : List Msg) :
    Prop where
  holds : s.Holds h₀ ms
  unused : retainSqlite conf = true → s.retain = none

theorem VecsHold.collect {s : RetainVecs} {ms : List Msg} (h : VecsHold conf h₀ s ms)
    (moves : OwnedHeap (List Msg) → ℕ → Bool) (found : Option (Option (List Msg))) :
    ∃ t, collectRetained conf moves found s = some t ∧
      VecsHold conf h₀ t (ms ++ found.join.getD []) := by
  unfold collectRetained
  split_ifs with hsqlite
  · obtain ⟨t, ht, hholds, hnull⟩ := h.holds.collectSqlite (h.unused hsqlite) found
    exact ⟨t, ht, hholds, fun _ => hnull⟩
  · obtain ⟨t, ht, hholds⟩ := h.holds.collectTree found
    exact ⟨t, ht, hholds, fun hon => absurd hon hsqlite⟩

/-- The vectors stand for what the model without vectors has collected. -/
structure VecRefines (conf : Conf) (h₀ : OwnedHeap (List Msg)) (v : SubVecs) (c : SubCtx) :
    Prop where
  nodes : v.nodes = c.nodes
  store : v.store = c.store
  vecs : VecsHold conf h₀ v.vecs c.msgRet

theorem VecRefines.step {v : SubVecs} {c : SubCtx} (h : VecRefines conf h₀ v c)
    (moves : OwnedHeap (List Msg) → ℕ → Bool) (nullFor : Bytes → Bool) (tn : TopicNode) :
    ∃ v', subVecStep nng conf cparam pid moves nullFor v tn = some v' ∧
      VecRefines conf h₀ v' (subEntryStep nng conf cparam pid c tn) := by
  unfold subVecStep subEntryStep
  cases tn.topicBody with
  | none => exact ⟨_, rfl, by rw [h.nodes], h.store, h.vecs⟩
  | some body =>
    dsimp only
    rw [h.store]
    by_cases hdeny : subAclDenies nng conf cparam (cstr body) = true
    · rw [if_pos hdeny, if_pos hdeny]
      exact ⟨_, rfl, by rw [h.nodes], rfl, h.vecs⟩
    · rw [if_neg hdeny, if_neg hdeny]
      set asks := tn.options.retainHandling = 0 ∨
        (tn.options.retainHandling = 1 ∧ c.store.checkTopic pid (cstr body) = false)
      set store := c.store.addSub pid (cstr body)
      have hfound : (if asks then some (foundVec nng conf nullFor store (cstr body))
          else none).join.getD [] =
          if asks then findRetain nng conf store (cstr body) else [] := by
        split_ifs
        · exact foundVec_getD store (cstr body)
        · rfl
      obtain ⟨t, ht, hhold⟩ := h.vecs.collect moves
        (if asks then some (foundVec nng conf nullFor store (cstr body)) else none)
      rw [hfound] at hhold
      rw [ht]
      exact ⟨_, rfl, by rw [h.nodes], rfl, hhold⟩

/-- The loop over the nodes comes to its end and leaves what the model without vectors leaves. -/
theorem VecRefines.foldlM {v : SubVecs} {c : SubCtx} (h : VecRefines conf h₀ v c)
    (moves : OwnedHeap (List Msg) → ℕ → Bool) (nullFor : Bytes → Bool)
    (nodes : List TopicNode) :
    ∃ v', nodes.foldlM (subVecStep nng conf cparam pid moves nullFor) v = some v' ∧
      VecRefines conf h₀ v' (nodes.foldl (subEntryStep nng conf cparam pid) c) := by
  induction nodes generalizing v c with
  | nil => exact ⟨v, rfl, h⟩
  | cons tn nodes ih =>
    obtain ⟨v₁, hstep, h₁⟩ := h.step moves nullFor tn
    obtain ⟨v', hrun, h'⟩ := ih h₁
    refine ⟨v', ?_, h'⟩
    rw [List.foldlM_cons, hstep]
    exact hrun

theorem msgRet_subEntryStep (c : SubCtx) (tn : TopicNode) :
    (subEntryStep nng conf cparam pid c tn).msgRet =
      c.msgRet ++ nodeRetained nng conf cparam pid c.store tn := by
  unfold subEntryStep nodeRetained allowedFilter
  cases tn.topicBody with
  | none => simp
  | some body =>
    by_cases hdeny : subAclDenies nng conf cparam (cstr body) = true
    · simp [hdeny]
    · rw [Option.bind_some, if_neg hdeny]
      dsimp only
      rw [if_neg hdeny]

theorem msgRet_foldl_subEntryStep (nodes : List TopicNode) (c : SubCtx) :
    (nodes.foldl (subEntryStep nng conf cparam pid) c).msgRet =
      c.msgRet ++ retainedOf nng conf cparam pid c.store nodes := by
  induction nodes generalizing c with
  | nil => rw [List.foldl_nil, retainedOf, List.append_nil]
  | cons tn nodes ih =>
    rw [List.foldl_cons, ih, msgRet_subEntryStep, (subEntryStep_cases c tn).2, retainedOf,
      List.append_assoc]

theorem msgRet_subCtxHandle (pkt : SubPacket) (st : Store) :
    (subCtxHandle nng conf env cparam pid pkt st).2.msgRet =
      packetRetained nng conf env cparam pid pkt st := by
  unfold subCtxHandle packetRetained
  by_cases hnode : pkt.node = []
  · rw [if_pos hnode, hnode, retainedOf, ite_self]
  · rw [if_neg hnode]
    by_cases hid : pkt.packetId = 0
    · rw [if_pos hid, if_pos (Or.inl hid)]
    · rw [if_neg hid]
      by_cases hhttp : subHttpRejects conf env = true
      · rw [if_pos hhttp, if_pos (Or.inr hhttp)]
      · rw [if_neg hhttp, if_neg (not_or.mpr ⟨hid, hhttp⟩)]
        exact (msgRet_foldl_subEntryStep pkt.node ⟨[], st, []⟩).trans (List.nil_append _)

theorem exists_subVecHandle (nng : Nng) (conf : Conf) (env : PubEnv) (cparam : Option ConnParam)
    (pid : ℕ) (moves : OwnedHeap (List Msg) → ℕ → Bool) (nullFor : Bytes → Bool)
    (h₀ : OwnedHeap (List Msg)) (pkt : SubPacket) (st : Store) :
    ∃ v, subVecHandle nng conf env cparam pid moves nullFor h₀ pkt st =
        some ((subCtxHandle nng conf env cparam pid pkt st).1, v) ∧
      VecRefines conf h₀ v (subCtxHandle nng conf env cparam pid pkt st).2 := by
  have hstart : VecsHold conf h₀ ⟨h₀, none, none⟩ [] :=
    ⟨⟨Or.inl rfl, rfl, .refl h₀ none⟩, fun _ => rfl⟩
  unfold subVecHandle subCtxHandle
  dsimp only
  split_ifs
  · exact ⟨_, rfl, rfl, rfl, hstart⟩
  · exact ⟨_, rfl, rfl, rfl, hstart⟩
  · exact ⟨_, rfl, rfl, rfl, hstart⟩
  · have hempty : VecRefines conf h₀ ⟨[], st, ⟨h₀, none, none⟩⟩ ⟨[], st, []⟩ := ⟨rfl, rfl, hstart⟩
    obtain ⟨v, hrun, hv⟩ := hempty.foldlM moves nullFor pkt.node
    exact ⟨v, by rw [hrun]; rfl, hv⟩

end Proofs

/-- Handling a SUBSCRIBE uses no vector that was freed, whatever the allocator does. In the end
`msg_ret` has the retained messages that the nodes ask for, in order, as they were returned; vectors
from before are as they were, and every other was freed. -/
theorem subVecHandle_collects (nng : Nng) (conf : Conf) (env : PubEnv) (cparam : Option ConnParam)
    (pid : ℕ) (moves : OwnedHeap (List Msg) → ℕ → Bool) (nullFor : Bytes → Bool)
    (h₀ : OwnedHeap (List Msg)) (pkt : SubPacket) (st : Store) :
    ∃ v, subVecHandle nng conf env cparam pid moves nullFor h₀ pkt st =
        some ((subCtxHandle nng conf env cparam pid pkt st).1, v) ∧
      v.nodes = (subCtxHandle nng conf env cparam pid pkt st).2.nodes ∧
      v.store = (subCtxHandle nng conf env cparam pid pkt st).2.store ∧
      CVector.elems v.vecs.heap v.vecs.msgRet =
        some (packetRetained nng conf env cparam pid pkt st) ∧
      (∀ q, q < h₀.size → v.vecs.heap.read q = h₀.read q) ∧
      ∀ q, h₀.size ≤ q → v.vecs.msgRet ≠ some q → v.vecs.heap.read q = none := by
  obtain ⟨v, hrun, hnodes, hstore, hhold, -⟩ :=
    exists_subVecHandle nng conf env cparam pid moves nullFor h₀ pkt st
  rw [msgRet_subCtxHandle] at hhold
  refine ⟨v, hrun, hnodes, hstore, hhold.elems, fun q hq => ?_, fun q hq hne => ?_⟩
  · exact hhold.moved.frame q hq nofun
  · exact hhold.moved.freed q (Or.inl hq) hne

end NanoMQ
