import NanoMQ.Forward

/-!
# The entries of a bridge that take a topic

`bridge_pub_handler` has a loop over the nodes and in it one over the entries of a node. What it
does depends only on the entries of enabled nodes that take the topic of the packet, in their order.
Its local `props` is replaced at the entries of nodes with MQTT 5 and otherwise kept from one entry
to the next, and `hitProps` and `hitPtr` say what it is at each: the list, and the object that holds
it.
-/

namespace NanoMQ

open ByteBuffer

structure BridgeHit where
  index : ℕ
  node : BridgeNode
  entry : Topics

section Hits

variable (nng : Nng) (w : Work)

def hitMsg (x : BridgeHit) (topic : Option Bytes) (props : Option PropertyList) : ForwardMsg :=
  ⟨x.index, topic, w.packet.payloadData, w.packet.payloadLen, w.packet.fixedHeader.dup,
    x.entry.qos.getD w.packet.fixedHeader.qos, x.entry.retain.getD w.packet.fixedHeader.retain,
    props⟩

def entryHits (i : ℕ) (node : BridgeNode) (es : List Topics) : List BridgeHit :=
  (es.filter (fun e => nng.topicFilter e.localTopic w.packet.topicBody)).map (⟨i, node, ·⟩)

/-- The entries of enabled nodes that take the topic. -/
def bridgeHits (i : ℕ) (nodes : List BridgeNode) : List BridgeHit :=
  ((nodes.zipIdx i).filter (·.1.enable)).flatMap (fun n => entryHits nng w n.2 n.1 n.1.forwards)

/-- The properties in hand when the message of an entry is built. -/
def hitProps (props : Option PropertyList) (x : BridgeHit) : Option PropertyList :=
  if w.protoVer = ProtoVer.v5 ∧ x.node.protoVer = ProtoVer.v5 then w.packet.properties else props

def hitPtr (c : Option ℕ × ℕ) (x : BridgeHit) : Option ℕ × ℕ :=
  if w.protoVer = ProtoVer.v5 ∧ x.node.protoVer = ProtoVer.v5 then
    match w.packet.properties with
    | none => (none, c.2)
    | some _ => (some c.2, c.2 + 1)
  else c

def scanMap {σ α β : Type} (f : σ → α → σ) (g : σ → α → β) : σ → List α → List β
  | _, [] => []
  | c, x :: xs => g (f c x) x :: scanMap f g (f c x) xs

def sendHits : Option PropertyList → List BridgeHit → List ForwardMsg :=
  scanMap (hitProps w) (fun props x => hitMsg w x (forwardTopic nng w x.entry) props)

def hitPtrs : Option ℕ × ℕ → List BridgeHit → List (Option ℕ) :=
  scanMap (hitPtr w) (fun c _ => c.1)

end Hits

section Lemmas

variable {nng : Nng} {w : Work}

theorem scanMap_append {σ α β : Type} (f : σ → α → σ) (g : σ → α → β) (c : σ) (xs ys : List α) :
    scanMap f g c (xs ++ ys) = scanMap f g c xs ++ scanMap f g (xs.foldl f c) ys := by
  induction xs generalizing c with
  | nil => rfl
  | cons x xs ih => rw [List.cons_append, scanMap, ih, scanMap, List.foldl_cons, List.cons_append]

theorem entryHits_cons_of_match {e : Topics} (i : ℕ) (node : BridgeNode) (es : List Topics)
    (h : nng.topicFilter e.localTopic w.packet.topicBody = true) :
    entryHits nng w i node (e :: es) = ⟨i, node, e⟩ :: entryHits nng w i node es := by
  rw [entryHits, List.filter_cons, if_pos h]
  rfl

theorem entryHits_cons_of_no_match {e : Topics} (i : ℕ) (node : BridgeNode) (es : List Topics)
    (h : ¬ nng.topicFilter e.localTopic w.packet.topicBody = true) :
    entryHits nng w i node (e :: es) = entryHits nng w i node es := by
  rw [entryHits, List.filter_cons, if_neg h]
  rfl

theorem bridgeHits_cons_of_enabled {node : BridgeNode} (i : ℕ) (nodes : List BridgeNode)
    (h : node.enable = true) :
    bridgeHits nng w i (node :: nodes) =
      entryHits nng w i node node.forwards ++ bridgeHits nng w (i + 1) nodes := by
  rw [bridgeHits, List.zipIdx_cons, List.filter_cons, if_pos h, List.flatMap_cons]
  rfl

theorem bridgeHits_cons_of_disabled {node : BridgeNode} (i : ℕ) (nodes : List BridgeNode)
    (h : ¬ node.enable = true) :
    bridgeHits nng w i (node :: nodes) = bridgeHits nng w (i + 1) nodes := by
  rw [bridgeHits, List.zipIdx_cons, List.filter_cons, if_neg h]
  rfl

theorem bridgeEntries_eq (i : ℕ) (node : BridgeNode) (props : Option PropertyList)
    (es : List Topics) :
    bridgeEntries nng w i node props es =
      ((entryHits nng w i node es).foldl (hitProps w) props,
        sendHits nng w props (entryHits nng w i node es)) := by
  induction es generalizing props with
  | nil => rfl
  | cons e es ih =>
    rw [bridgeEntries]
    by_cases hmatch : nng.topicFilter e.localTopic w.packet.topicBody = true
    · rw [if_pos hmatch, entryHits_cons_of_match i node es hmatch]
      simp only [ih]
      rfl
    · rw [if_neg hmatch, entryHits_cons_of_no_match i node es hmatch, ih]

/-- The handler goes through the entries that take the topic. -/
theorem bridgeNodes_eq (i : ℕ) (props : Option PropertyList) (nodes : List BridgeNode) :
    bridgeNodes nng w i props nodes = sendHits nng w props (bridgeHits nng w i nodes) := by
  induction nodes generalizing i props with
  | nil => rfl
  | cons node nodes ih =>
    rw [bridgeNodes]
    by_cases hen : node.enable = true
    · rw [if_pos hen, bridgeHits_cons_of_enabled i nodes hen, sendHits, scanMap_append,
        bridgeEntries_eq]
      simp only [ih]
      rfl
    · rw [if_neg hen, bridgeHits_cons_of_disabled i nodes hen, ih]

theorem mem_bridgeHits_iff {x : BridgeHit} {nodes : List BridgeNode} :
    x ∈ bridgeHits nng w 0 nodes ↔
      nodes[x.index]? = some x.node ∧ x.node.enable = true ∧ x.entry ∈ x.node.forwards ∧
        nng.topicFilter x.entry.localTopic w.packet.topicBody = true := by
  constructor
  · intro hx
    obtain ⟨n, hn, hx⟩ := List.mem_flatMap.mp hx
    obtain ⟨e, he, rfl⟩ := List.mem_map.mp hx
    obtain ⟨hn, hen⟩ := List.mem_filter.mp hn
    exact ⟨List.mem_zipIdx_iff_getElem?.mp hn, hen, List.mem_filter.mp he⟩
  · rintro ⟨hget, hen, he⟩
    have hn : (x.node, x.index) ∈ nodes.zipIdx := List.mem_zipIdx_iff_getElem?.mpr hget
    refine List.mem_flatMap.mpr ⟨_, List.mem_filter.mpr ⟨hn, hen⟩, ?_⟩
    exact List.mem_map.mpr ⟨x.entry, List.mem_filter.mpr he, rfl⟩

/-- The properties aside, each message is what its entry says. -/
theorem sendHits_core (nng : Nng) (w : Work) (props : Option PropertyList) (xs : List BridgeHit) :
    (sendHits nng w props xs).map (fun m => { m with properties := none }) =
      xs.map (fun x => hitMsg w x (forwardTopic nng w x.entry) none) := by
  induction xs generalizing props with
  | nil => rfl
  | cons x xs ih =>
    rw [List.map_cons, ← ih (hitProps w props x)]
    rfl

theorem sendHits_node (nng : Nng) (w : Work) (props : Option PropertyList) (xs : List BridgeHit) :
    (sendHits nng w props xs).map ForwardMsg.node = xs.map BridgeHit.index := by
  have hcore := congrArg (List.map ForwardMsg.node) (sendHits_core nng w props xs)
  rwa [List.map_map, List.map_map] at hcore

end Lemmas

end NanoMQ
