import NanoMQ.BridgeHits
import NanoMQ.Reference
import Mathlib.Algebra.GroupWithZero.Nat

/-!
# The works of the broker

`broker` counts its contexts, lets `bridge_client` allocate an `aio` of every context for each
bridge, and fills the array `works` block by block: the broker, the bridges, AWS, iceoryx, the HTTP
server and the proxy of NNG. A write outside of the array has no result. Memory, sockets and
contexts are always to be had; bridges over QUIC are left out.
-/

namespace NanoMQ

open ByteBuffer

/-- A bridge with the number of its works and its address, which may be `NULL`. -/
structure CtxNode extends BridgeNode where
  parallel : ℕ
  address : Option Bytes

structure BrokerConf extends Conf where
  parallel : ℕ
  httpEnable : Bool
  bridge : List CtxNode
  bridge_nodes : bridge.map CtxNode.toBridgeNode = bridgeNodes
  aws : List CtxNode
  aws_nodes : aws.map CtxNode.toBridgeNode = awsNodes
  subEnable : Bool
  subCount : ℕ

def httpCtxNum : ℕ := 4

structure CtxCount where
  totalCtx : ℕ
  numWork : ℕ

def CtxCount.add (n : CtxCount) (ctxs works : ℕ) : CtxCount :=
  ⟨n.totalCtx + ctxs, n.numWork + works⟩

/-- Each context of a bridge comes with one of the broker. -/
def CtxCount.addNodes (n : CtxCount) (nodes : List CtxNode) : CtxCount :=
  nodes.foldl (fun n node => n.add (node.parallel * 2) node.parallel) n

def countCtx (c : BrokerConf) : CtxCount :=
  let n : CtxCount := ⟨c.parallel, c.parallel⟩
  let n := if c.httpEnable then n.add httpCtxNum httpCtxNum else n
  let n := if c.build.iceoryx then n.add httpCtxNum httpCtxNum else n
  let n :=
    if c.bridgeMode then
      let n := n.addNodes c.bridge
      if c.build.awsBridge then n.addNodes c.aws else n
    else n
  if c.subEnable then (List.range c.subCount).foldl (fun n _ => n.add 1 1) n else n

/-- The number of entries of `bridge_aio` that `bridge_client` allocates, if it does. -/
def bridgeClient (totalCtx : ℕ) (node : CtxNode) : Option ℕ :=
  if node.address = none then none else some totalCtx

structure CtxWork where
  workId : ℕ
  proto : Proto
  node : Option ℕ
  nngSnodeIdx : Option ℕ

structure WorksInit where
  works : List (Option CtxWork)
  written : List ℕ
  tmp : ℕ

def assignWork (mk : ℕ → CtxWork) (s : WorksInit) (i : ℕ) : Option WorksInit :=
  if i < s.works.length then
    some { s with
      works := s.works.set i (some { mk i with workId := i })
      written := s.written ++ [i] }
  else none

def createCtx (mk : ℕ → CtxWork) (n : ℕ) (s : WorksInit) : Option WorksInit := do
  let s ← (List.range' s.tmp n).foldlM (assignWork mk) s
  some { s with tmp := s.tmp + n }

def createBrokerCtx (c : BrokerConf) : WorksInit → Option WorksInit :=
  createCtx (⟨·, .mqttBroker, none, none⟩) c.parallel

def createBridgeCtx (c : BrokerConf) (s : WorksInit) : Option WorksInit :=
  if c.bridgeMode then
    c.bridge.zipIdx.foldlM
      (fun s n => createCtx (⟨·, .mqttBridge, some n.2, none⟩) n.1.parallel s) s
  else some s

def createAwsCtx (c : BrokerConf) (s : WorksInit) : Option WorksInit :=
  if c.bridgeMode ∧ c.build.awsBridge then
    c.aws.foldlM (fun s n => createCtx (⟨·, .awsBridge, none, none⟩) n.parallel s) s
  else some s

def createIceoryxCtx (c : BrokerConf) (s : WorksInit) : Option WorksInit :=
  if c.build.iceoryx then createCtx (⟨·, .iceoryxBridge, none, none⟩) httpCtxNum s else some s

def createHttpCtx (c : BrokerConf) (s : WorksInit) : Option WorksInit :=
  if c.httpEnable then createCtx (⟨·, .httpServer, none, none⟩) httpCtxNum s else some s

def createSubCtx (c : BrokerConf) (s : WorksInit) : Option WorksInit :=
  if c.subEnable then
    createCtx (fun i => ⟨i, .nngBridge, none, some (i - s.tmp)⟩) c.subCount s
  else some s

def createWorks (c : BrokerConf) (s : WorksInit) : Option WorksInit := do
  let s ← createBrokerCtx c s
  let s ← createBridgeCtx c s
  let s ← createAwsCtx c s
  let s ← createIceoryxCtx c s
  let s ← createHttpCtx c s
  createSubCtx c s

structure BrokerInit where
  totalCtx : ℕ
  numWork : ℕ
  /-- The entries of `bridge_aio` of each bridge, if there are any. -/
  bridgeAio : List (Option ℕ)
  works : List (Option CtxWork)
  written : List ℕ

def brokerInit (c : BrokerConf) : Option BrokerInit := do
  let n := countCtx c
  let bridgeAio := c.bridge.map
    (fun node => if c.bridgeMode then bridgeClient n.totalCtx node else none)
  let s ← createWorks c ⟨List.replicate n.numWork none, [], 0⟩
  some ⟨n.totalCtx, n.numWork, bridgeAio, s.works, s.written⟩

structure WorksInit.FilledTo (size k : ℕ) (s : WorksInit) : Prop where
  length : s.works.length = size
  written : s.written = List.range k
  ids : ∀ i < k, ∃ w, s.works[i]? = some (some w) ∧ w.workId = i

theorem WorksInit.FilledTo.exists_assignWork {size k : ℕ} {s : WorksInit} (h : s.FilledTo size k)
    (mk : ℕ → CtxWork) (hk : k < size) :
    ∃ s', assignWork mk s k = some s' ∧ s'.FilledTo size (k + 1) ∧ s'.tmp = s.tmp := by
  have hlt : k < s.works.length := h.length ▸ hk
  refine ⟨_, if_pos hlt, ⟨?_, ?_, ?_⟩, rfl⟩
  · exact List.length_set.trans h.length
  · change s.written ++ [k] = _
    rw [h.written, List.range_succ]
  · intro i hi
    by_cases hik : i = k
    · subst hik
      exact ⟨_, List.getElem?_set_self hlt, rfl⟩
    · obtain ⟨w, hw, hid⟩ := h.ids i (by omega)
      exact ⟨w, (List.getElem?_set_ne (Ne.symm hik)).trans hw, hid⟩

theorem WorksInit.FilledTo.exists_assignWorks {size k : ℕ} {s : WorksInit} (h : s.FilledTo size k)
    (mk : ℕ → CtxWork) (n : ℕ) (hk : k + n ≤ size) :
    ∃ s', (List.range' k n).foldlM (assignWork mk) s = some s' ∧ s'.FilledTo size (k + n) ∧
      s'.tmp = s.tmp := by
  induction n generalizing s k with
  | zero => exact ⟨s, rfl, h, rfl⟩
  | succ n ih =>
    obtain ⟨s₁, hs₁, h₁, htmp₁⟩ := h.exists_assignWork mk (by omega)
    obtain ⟨s₂, hs₂, h₂, htmp₂⟩ := ih h₁ (by omega)
    refine ⟨s₂, ?_, ?_, htmp₂.trans htmp₁⟩
    · rw [List.range'_succ, List.foldlM_cons, hs₁]
      exact hs₂
    · rwa [Nat.add_assoc, Nat.add_comm 1 n] at h₂

/-- A part of the initialization fills the next slots, as many as it says, if they are there. -/
def FillsNext (size : ℕ) (f : WorksInit → Option WorksInit) (n : ℕ) : Prop :=
  ∀ s, s.FilledTo size s.tmp → s.tmp + n ≤ size →
    ∃ s', f s = some s' ∧ s'.FilledTo size s'.tmp ∧ s'.tmp = s.tmp + n

section FillsNext

variable {size n m : ℕ} {f g : WorksInit → Option WorksInit}

theorem fillsNext_some : FillsNext size some 0 :=
  fun s h _ => ⟨s, rfl, h, rfl⟩

theorem FillsNext.bind (hf : FillsNext size f n) (hg : FillsNext size g m) :
    FillsNext size (fun s => (f s).bind g) (n + m) := by
  intro s h hle
  obtain ⟨s₁, hs₁, h₁, htmp₁⟩ := hf s h (by omega)
  obtain ⟨s₂, hs₂, h₂, htmp₂⟩ := hg s₁ h₁ (by omega)
  refine ⟨s₂, ?_, h₂, by omega⟩
  change (f s).bind g = some s₂
  rw [hs₁, Option.bind_some, hs₂]

theorem FillsNext.ite (p : Prop) [Decidable p] (hf : FillsNext size f n) :
    FillsNext size (fun s => if p then f s else some s) (if p then n else 0) := by
  split_ifs
  · exact hf
  · exact fillsNext_some

theorem fillsNext_createCtx (mk : WorksInit → ℕ → CtxWork) (n : ℕ) :
    FillsNext size (fun s => createCtx (mk s) n s) n := by
  intro s h hle
  obtain ⟨s₁, hs₁, h₁, htmp₁⟩ := h.exists_assignWorks (mk s) n hle
  refine ⟨{ s₁ with tmp := s₁.tmp + n }, ?_, ⟨h₁.length, ?_, ?_⟩, congrArg (· + n) htmp₁⟩
  · change (List.foldlM (assignWork (mk s)) s (List.range' s.tmp n)).bind _ = _
    rw [hs₁]
    rfl
  · exact htmp₁ ▸ h₁.written
  · exact htmp₁ ▸ h₁.ids

theorem fillsNext_foldlM {α : Type} {step : α → WorksInit → Option WorksInit} {num : α → ℕ}
    (hstep : ∀ x, FillsNext size (step x) (num x)) (xs : List α) :
    FillsNext size (fun s => xs.foldlM (fun s x => step x s) s) (xs.map num).sum := by
  induction xs with
  | nil => exact fillsNext_some
  | cons x xs ih => exact (hstep x).bind ih

end FillsNext

def parallelSum (nodes : List CtxNode) : ℕ := (nodes.map CtxNode.parallel).sum

theorem addNodes_eq (n : CtxCount) (nodes : List CtxNode) :
    n.addNodes nodes = n.add (parallelSum nodes * 2) (parallelSum nodes) := by
  induction nodes generalizing n with
  | nil => rfl
  | cons node nodes ih =>
    have hsum : parallelSum (node :: nodes) = node.parallel + parallelSum nodes := List.sum_cons
    rw [CtxCount.addNodes, List.foldl_cons, ← CtxCount.addNodes, ih, hsum, CtxCount.add,
      CtxCount.add, CtxCount.add, Nat.add_mul, Nat.add_assoc, Nat.add_assoc]

theorem foldl_add_one (n : CtxCount) (k : ℕ) :
    (List.range k).foldl (fun n _ => n.add 1 1) n = n.add k k := by
  induction k with
  | zero => rfl
  | succ k ih =>
    rw [List.range_succ, List.foldl_append, ih]
    rfl

section Count

variable (c : BrokerConf)

def BrokerConf.bridgeWorks : ℕ := if c.bridgeMode then parallelSum c.bridge else 0

def BrokerConf.awsWorks : ℕ :=
  if c.bridgeMode ∧ c.build.awsBridge then parallelSum c.aws else 0

def BrokerConf.iceoryxWorks : ℕ := if c.build.iceoryx then httpCtxNum else 0

def BrokerConf.httpWorks : ℕ := if c.httpEnable then httpCtxNum else 0

def BrokerConf.subWorks : ℕ := if c.subEnable then c.subCount else 0

theorem countCtx_eq :
    countCtx c =
      ⟨c.parallel + c.httpWorks + c.iceoryxWorks + c.bridgeWorks * 2 + c.awsWorks * 2 + c.subWorks,
        c.parallel + c.httpWorks + c.iceoryxWorks + c.bridgeWorks + c.awsWorks + c.subWorks⟩ := by
  have hite (p : Prop) [Decidable p] (n : CtxCount) (a b : ℕ) :
      (if p then n.add a b else n) = n.add (if p then a else 0) (if p then b else 0) := by
    split_ifs <;> rfl
  have hbridge (n : CtxCount) :
      (if c.bridgeMode = true then
        if c.build.awsBridge = true then (n.addNodes c.bridge).addNodes c.aws
        else n.addNodes c.bridge
      else n) =
        (n.add (c.bridgeWorks * 2) c.bridgeWorks).add (c.awsWorks * 2) c.awsWorks := by
    unfold BrokerConf.bridgeWorks BrokerConf.awsWorks
    split_ifs with hmode haws hboth hboth hboth
    · rw [addNodes_eq, addNodes_eq]
    · exact absurd ⟨hmode, haws⟩ hboth
    · exact absurd hboth.2 haws
    · rw [addNodes_eq]
      rfl
    · exact absurd hboth.1 hmode
    · rfl
  unfold countCtx
  dsimp only
  rw [hbridge, foldl_add_one, hite, hite, hite]
  rfl

theorem numWork_le_totalCtx : (countCtx c).numWork ≤ (countCtx c).totalCtx := by
  rw [countCtx_eq]
  dsimp only
  omega

end Count

/-- The blocks of works are as long as they were counted. -/
theorem fillsNext_createWorks (c : BrokerConf) (size : ℕ) :
    FillsNext size (createWorks c) (c.parallel + (c.bridgeWorks + (c.awsWorks + (c.iceoryxWorks +
      (c.httpWorks + c.subWorks))))) := by
  have hbridge : FillsNext size (createBridgeCtx c) c.bridgeWorks := by
    have hsum : (c.bridge.zipIdx.map (fun n => n.1.parallel)).sum = parallelSum c.bridge := by
      have hfst := List.zipIdx_map_fst 0 c.bridge
      rw [parallelSum, ← hfst, List.map_map, hfst]
      rfl
    rw [BrokerConf.bridgeWorks, ← hsum]
    exact (fillsNext_foldlM (fun n : CtxNode × ℕ =>
      fillsNext_createCtx (fun _ => (⟨·, .mqttBridge, some n.2, none⟩)) n.1.parallel) _).ite _
  have haws : FillsNext size (createAwsCtx c) c.awsWorks :=
    (fillsNext_foldlM (fun n : CtxNode =>
      fillsNext_createCtx (fun _ => (⟨·, .awsBridge, none, none⟩)) n.parallel) c.aws).ite _
  have hice : FillsNext size (createIceoryxCtx c) c.iceoryxWorks :=
    (fillsNext_createCtx (fun _ => (⟨·, .iceoryxBridge, none, none⟩)) httpCtxNum).ite _
  have hhttp : FillsNext size (createHttpCtx c) c.httpWorks :=
    (fillsNext_createCtx (fun _ => (⟨·, .httpServer, none, none⟩)) httpCtxNum).ite _
  have hsub : FillsNext size (createSubCtx c) c.subWorks :=
    (fillsNext_createCtx (fun s i => ⟨i, .nngBridge, none, some (i - s.tmp)⟩) c.subCount).ite _
  have hbroker : FillsNext size (createBrokerCtx c) c.parallel :=
    fillsNext_createCtx (fun _ => (⟨·, .mqttBroker, none, none⟩)) c.parallel
  exact hbroker.bind (hbridge.bind (haws.bind (hice.bind (hhttp.bind hsub))))

/-- Every slot is written once and no other place, and each work has the number of its slot and an
entry for it among the contexts. -/
structure BrokerInit.Assigned (init : BrokerInit) : Prop where
  length : init.works.length = init.numWork
  once : ∀ i, init.written.count i = if i < init.numWork then 1 else 0
  ids : ∀ i < init.numWork, ∃ w, init.works[i]? = some (some w) ∧ w.workId = i
  lt_totalCtx : ∀ i < init.numWork, i < init.totalCtx

theorem exists_brokerInit (c : BrokerConf) :
    ∃ init, brokerInit c = some init ∧ init.Assigned ∧ init.numWork = (countCtx c).numWork ∧
      init.totalCtx = (countCtx c).totalCtx ∧
      init.bridgeAio = c.bridge.map (fun node =>
        if c.bridgeMode then bridgeClient (countCtx c).totalCtx node else none) := by
  have hnum : 0 + (c.parallel + (c.bridgeWorks + (c.awsWorks + (c.iceoryxWorks + (c.httpWorks +
      c.subWorks))))) = (countCtx c).numWork := by
    rw [countCtx_eq]
    dsimp only
    omega
  have hstart : WorksInit.FilledTo (countCtx c).numWork 0
      ⟨List.replicate (countCtx c).numWork none, [], 0⟩ :=
    ⟨List.length_replicate, rfl, fun i hi => absurd hi (Nat.not_lt_zero i)⟩
  obtain ⟨s, hs, h, htmp⟩ := fillsNext_createWorks c _ ⟨_, [], 0⟩ hstart (le_of_eq hnum)
  have hend : s.tmp = (countCtx c).numWork := htmp.trans hnum
  rw [hend] at h
  refine ⟨⟨_, _, _, s.works, s.written⟩, ?_, ⟨h.length, ?_, h.ids, ?_⟩, rfl, rfl, rfl⟩
  · change (createWorks c _).bind _ = _
    rw [hs]
    rfl
  · intro i
    change s.written.count i = _
    rw [h.written]
    exact List.count_range
  · intro i hi
    exact Nat.lt_of_lt_of_le hi (numWork_le_totalCtx c)

def bridgeAccesses (nng : Nng) (c : BrokerConf) (w : Work) : List ℕ :=
  if c.bridgeMode then (bridgePubHandler nng w c.toConf).map ForwardMsg.node else []

/-- Every work finds the `aio` of its number at every bridge that a publication is forwarded to. The
number is read into a `uint32_t`. -/
def BrokerInit.AccessesInside (init : BrokerInit) (nng : Nng) (c : BrokerConf) : Prop :=
  ∀ (i : ℕ) (x : CtxWork), init.works[i]? = some (some x) →
    ∀ w : Work, ∀ t ∈ bridgeAccesses nng c w,
      ∃ entries, init.bridgeAio[t]? = some (some entries) ∧ x.workId % 4294967296 < entries

/-- The bridge is enabled and has an entry that takes the topic, which is not one of the system. -/
def Forwards (nng : Nng) (w : Work) (node : BridgeNode) : Prop :=
  ¬ (w.packet.topicLen > 4 ∧ w.packet.startsSys = true) ∧ node.enable = true ∧
    ∃ e ∈ node.forwards, nng.topicFilter e.localTopic w.packet.topicBody = true

theorem mem_bridgeAccesses_iff {nng : Nng} {c : BrokerConf} {w : Work} {t : ℕ} :
    t ∈ bridgeAccesses nng c w ↔
      c.bridgeMode = true ∧
        ∃ node, c.bridge[t]? = some node ∧ Forwards nng w node.toBridgeNode := by
  unfold bridgeAccesses bridgePubHandler Forwards
  by_cases hmode : c.bridgeMode = true
  · rw [if_pos hmode, and_iff_right hmode]
    by_cases hsys : w.packet.topicLen > 4 ∧ w.packet.startsSys = true
    · rw [if_pos hsys]
      refine iff_of_false List.not_mem_nil ?_
      rintro ⟨node, -, hnot, -⟩
      exact hnot hsys
    · rw [if_neg hsys, bridgeNodes_eq, sendHits_node, ← c.bridge_nodes, List.mem_map]
      constructor
      · rintro ⟨x, hx, rfl⟩
        obtain ⟨hget, hen, he, htake⟩ := mem_bridgeHits_iff.mp hx
        rw [List.getElem?_map, Option.map_eq_some_iff] at hget
        obtain ⟨node, hnode, hx⟩ := hget
        rw [← hx] at hen he
        exact ⟨node, hnode, hsys, hen, x.entry, he, htake⟩
      · rintro ⟨node, hnode, -, hen, e, he, htake⟩
        refine ⟨⟨t, node.toBridgeNode, e⟩, mem_bridgeHits_iff.mpr ⟨?_, hen, he, htake⟩, rfl⟩
        rw [List.getElem?_map, hnode, Option.map_some]
  · rw [if_neg hmode]
    exact iff_of_false List.not_mem_nil (fun h => hmode h.1)

/-- The works are assigned for every configuration, and their numbers are inside of what was
allocated for the bridges exactly when each bridge that forwards a publication has an address. -/
theorem works_assigned_iff (nng : Nng) (c : BrokerConf) :
    (∃ init, brokerInit c = some init ∧ init.Assigned ∧ init.AccessesInside nng c) ↔
      (c.bridgeMode = true → 0 < (countCtx c).numWork →
        ∀ node ∈ c.bridge, (∃ w, Forwards nng w node.toBridgeNode) → node.address ≠ none) := by
  obtain ⟨init, hinit, hassigned, hnum, htotal, haio⟩ := exists_brokerInit c
  constructor
  · rintro ⟨init', hinit', -, hinside⟩ hmode hpos node hnode ⟨w, hw⟩ hnull
    obtain rfl : init = init' := Option.some.inj (hinit.symm.trans hinit')
    obtain ⟨x, hx, -⟩ := hassigned.ids 0 (hnum ▸ hpos)
    obtain ⟨t, ht⟩ := List.getElem?_of_mem hnode
    obtain ⟨entries, hentries, -⟩ := hinside 0 x hx w t
      (mem_bridgeAccesses_iff.mpr ⟨hmode, node, ht, hw⟩)
    rw [haio, List.getElem?_map, ht, Option.map_some, if_pos hmode, bridgeClient,
      if_pos hnull] at hentries
    cases hentries
  · intro haddr
    refine ⟨init, hinit, hassigned, ?_⟩
    intro i x hx w t ht
    obtain ⟨hmode, node, hnode, hw⟩ := mem_bridgeAccesses_iff.mp ht
    have hi : i < init.numWork := by
      rw [← hassigned.length]
      exact (List.getElem?_eq_some_iff.mp hx).1
    obtain ⟨x', hx', hid⟩ := hassigned.ids i hi
    obtain rfl : x = x' := Option.some.inj (Option.some.inj (hx.symm.trans hx'))
    have hsome := haddr hmode (by omega) node (List.mem_of_getElem? hnode) ⟨w, hw⟩
    refine ⟨init.totalCtx, ?_, ?_⟩
    · rw [haio, List.getElem?_map, hnode, Option.map_some, if_pos hmode, bridgeClient,
        if_neg hsome, htotal]
    · rw [hid]
      exact Nat.lt_of_le_of_lt (Nat.mod_le i _) (hassigned.lt_totalCtx i hi)

/-- One work for the clients, and a bridge for every topic that has no address and no works. -/
def unaddressedConf : BrokerConf :=
  { Conf.bare with
    bridgeMode := true
    bridgeNodes := [⟨true, ProtoVer.v311, [⟨ascii "#", none, none, none, none, none⟩], [], false⟩]
    awsNodes := []
    parallel := 1
    httpEnable := false
    bridge := [⟨⟨true, ProtoVer.v311, [⟨ascii "#", none, none, none, none, none⟩], [], false⟩, 0,
      none⟩]
    bridge_nodes := rfl
    aws := []
    aws_nodes := rfl
    subEnable := false
    subCount := 0 }

def publishedA : Work :=
  { Work.alloc .mqttBroker with
    pubPacket := some { PubPacket.zalloc with topicBody := some (ascii "a"), topicLen := 1 } }

/-- The only work reads an entry of an array that was never allocated. -/
theorem work_reads_unallocated :
    ∃ init, brokerInit unaddressedConf = some init ∧ init.bridgeAio = [none] ∧
      bridgeAccesses Nng.reference unaddressedConf publishedA = [0] ∧
      ¬ init.AccessesInside Nng.reference unaddressedConf := by
  refine ⟨_, rfl, rfl, by decide, ?_⟩
  intro hinside
  obtain ⟨entries, hentries, -⟩ := hinside 0 _ rfl publishedA 0 (by decide)
  cases hentries

end NanoMQ
