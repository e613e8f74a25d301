import NanoMQ.Acl
import NanoMQ.DecodeSub
import NanoMQ.SubTables

/-!
# Handling a decoded SUBSCRIBE

`subCtxHandle` is `sub_ctx_handle`. The HTTP authorization is asked about all filters at once, and
its refusal marks every node and ends the matter. Otherwise the nodes are gone through in order: one
that the access control denies is marked, any other has its filter put into the tables and the
retained messages of the filter collected, as its retain handling says.
-/

namespace NanoMQ

open ByteBuffer

structure SubCtx where
  nodes : List TopicNode
  store : Store
  msgRet : List Msg

section Handle

variable (nng : Nng) (conf : Conf) (env : PubEnv) (cparam : Option ConnParam) (pid : ℕ)

def subAclDenies (topic : Bytes) : Bool :=
  match cparam with
  | none => false
  | some param => conf.aclEnable && !authAcl nng conf .sub param topic

/-- There is a queue of the filters to ask about, and `nmq_auth_http_sub_pub` refuses them. -/
def subHttpRejects : Bool := conf.authHttpEnable && !env.queueFails && !env.authGranted

def findRetain (st : Store) (topic : Bytes) : List Msg :=
  if conf.build.sqlite && conf.sqliteEnable then nng.qosDbFindRetain st.sqliteRet topic
  else nng.dbtreeFindRetain st.dbRet topic

def subEntryStep (c : SubCtx) (tn : TopicNode) : SubCtx :=
  match tn.topicBody with
  | none => { c with nodes := c.nodes ++ [tn] }
  | some body =>
      let topic := cstr body
      -- both values of `acl_deny_action` go on with the next node
      if subAclDenies nng conf cparam topic then
        { c with nodes := c.nodes ++ [{ tn with reasonCode := nng.authSubError }] }
      else
        let exist := c.store.checkTopic pid topic
        let store := c.store.addSub pid topic
        let rh := tn.options.retainHandling
        ⟨c.nodes ++ [tn], store,
          c.msgRet ++ if rh = 0 ∨ (rh = 1 ∧ exist = false) then findRetain nng conf store topic
            else []⟩

def subEntries (st : Store) (nodes : List TopicNode) : SubCtx :=
  nodes.foldl (subEntryStep nng conf cparam pid) ⟨[], st, []⟩

/-- The negative results `-1` and `-2` stand for themselves modulo 256. -/
def subCtxHandle (pkt : SubPacket) (st : Store) : ReasonCode × SubCtx :=
  if pkt.node = [] then (0xff, ⟨pkt.node, st, []⟩)
  else if pkt.packetId = 0 then (0xfe, ⟨pkt.node, st, []⟩)
  else if subHttpRejects conf env then
    (0, ⟨pkt.node.map (fun tn => { tn with reasonCode := nng.authSubError }), st, []⟩)
  else (0, subEntries nng conf cparam pid st pkt.node)

def allowedFilter (tn : TopicNode) : Option Bytes :=
  tn.topicBody.bind (fun body =>
    if subAclDenies nng conf cparam (cstr body) then none else some (cstr body))

def aclMarked (tn : TopicNode) : TopicNode :=
  if tn.topicBody.isSome ∧ allowedFilter nng conf cparam tn = none then
    { tn with reasonCode := nng.authSubError }
  else tn

end Handle

section Loop

variable {nng : Nng} {conf : Conf} {cparam : Option ConnParam} {pid : ℕ} {c : SubCtx}
  {tn : TopicNode}

theorem subEntryStep_of_not_allowed (h : allowedFilter nng conf cparam tn = none) :
    subEntryStep nng conf cparam pid c tn =
      { c with nodes := c.nodes ++ [aclMarked nng conf cparam tn] } := by
  unfold subEntryStep aclMarked
  unfold allowedFilter at h ⊢
  cases hbody : tn.topicBody with
  | none => simp
  | some body =>
    rw [hbody, Option.bind_some] at h
    split_ifs at h with hdeny
    simp [hdeny]

theorem subEntryStep_of_allowed {f : Bytes} (h : allowedFilter nng conf cparam tn = some f) :
    (subEntryStep nng conf cparam pid c tn).nodes = c.nodes ++ [aclMarked nng conf cparam tn] ∧
      (subEntryStep nng conf cparam pid c tn).store = c.store.addSub pid f := by
  unfold subEntryStep aclMarked
  rw [h]
  unfold allowedFilter at h
  cases hbody : tn.topicBody with
  | none =>
    rw [hbody] at h
    cases h
  | some body =>
    rw [hbody, Option.bind_some] at h
    split_ifs at h with hdeny
    obtain rfl := Option.some.inj h
    simp [hdeny]

/-- A pass over one node marks it and does nothing else, or adds its filter. -/
theorem subEntryStep_cases (c : SubCtx) (tn : TopicNode) :
    (subEntryStep nng conf cparam pid c tn).nodes = c.nodes ++ [aclMarked nng conf cparam tn] ∧
      (subEntryStep nng conf cparam pid c tn).store =
        (allowedFilter nng conf cparam tn).elim c.store (c.store.addSub pid) := by
  cases h : allowedFilter nng conf cparam tn with
  | none =>
    rw [subEntryStep_of_not_allowed h]
    exact ⟨rfl, rfl⟩
  | some f => exact subEntryStep_of_allowed h

theorem nodes_foldl_subEntryStep (nodes : List TopicNode) (c : SubCtx) :
    (nodes.foldl (subEntryStep nng conf cparam pid) c).nodes =
      c.nodes ++ nodes.map (aclMarked nng conf cparam) := by
  induction nodes generalizing c with
  | nil => rw [List.foldl_nil, List.map_nil, List.append_nil]
  | cons tn nodes ih =>
    rw [List.foldl_cons, ih, (subEntryStep_cases c tn).1, List.map_cons, List.append_assoc]
    rfl

def allowedSubs (nng : Nng) (conf : Conf) (cparam : Option ConnParam) (pid : ℕ)
    (nodes : List TopicNode) : Set (ℕ × Bytes) :=
  {s | s.1 = pid ∧ ∃ tn ∈ nodes, allowedFilter nng conf cparam tn = some s.2}

theorem mem_allowedSubs_cons {nodes : List TopicNode} {s : ℕ × Bytes} :
    s ∈ allowedSubs nng conf cparam pid (tn :: nodes) ↔
      s.1 = pid ∧ allowedFilter nng conf cparam tn = some s.2 ∨
        s ∈ allowedSubs nng conf cparam pid nodes := by
  constructor
  · rintro ⟨hp, x, hx, hf⟩
    rcases List.mem_cons.mp hx with rfl | hx
    · exact Or.inl ⟨hp, hf⟩
    · exact Or.inr ⟨hp, x, hx, hf⟩
  · rintro (⟨hp, hf⟩ | ⟨hp, x, hx, hf⟩)
    · exact ⟨hp, tn, List.mem_cons_self, hf⟩
    · exact ⟨hp, x, List.mem_cons_of_mem tn hx, hf⟩

/-- The loop adds the allowed filters to what the tables stand for. -/
theorem represents_foldl_subEntryStep (nodes : List TopicNode) {c : SubCtx}
    {subs : Set (ℕ × Bytes)} (h : Represents c.store subs) :
    Represents (nodes.foldl (subEntryStep nng conf cparam pid) c).store
      (subs ∪ allowedSubs nng conf cparam pid nodes) := by
  induction nodes generalizing c subs with
  | nil =>
    have hnone : allowedSubs nng conf cparam pid [] = ∅ :=
      Set.eq_empty_of_forall_notMem (fun s ⟨_, x, hx, _⟩ => absurd hx List.not_mem_nil)
    rw [List.foldl_nil, hnone, Set.union_empty]
    exact h
  | cons tn nodes ih =>
    rw [List.foldl_cons]
    cases hf : allowedFilter nng conf cparam tn with
    | none =>
      have hsame : allowedSubs nng conf cparam pid (tn :: nodes) =
          allowedSubs nng conf cparam pid nodes := by
        ext s
        rw [mem_allowedSubs_cons, hf]
        exact or_iff_right (fun hs => by cases hs.2)
      rw [hsame, subEntryStep_of_not_allowed hf]
      exact ih h
    | some f =>
      have hmore : subs ∪ allowedSubs nng conf cparam pid (tn :: nodes) =
          insert (pid, f) subs ∪ allowedSubs nng conf cparam pid nodes := by
        ext ⟨p, g⟩
        rw [Set.mem_union, Set.mem_union, mem_allowedSubs_cons, hf, Set.mem_insert_iff,
          Prod.mk.injEq, Option.some.injEq]
        grind
      rw [hmore]
      apply ih
      rw [(subEntryStep_of_allowed hf).2]
      exact h.addSub

end Loop

end NanoMQ
