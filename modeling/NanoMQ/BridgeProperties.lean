import NanoMQ.BridgeForward

/-!
# The properties of what a bridge forwards

A node with MQTT 5 is sent a copy of the properties that the publisher gave, in a list of its own. A
node without MQTT 5 should be sent none. It is sent what `props` was left at, so the list of an
earlier message, and the very same object, if an entry of a node with MQTT 5 took the topic before.
-/

namespace NanoMQ

open ByteBuffer

def ownProps (w : Work) (node : BridgeNode) : Option PropertyList :=
  if w.protoVer = ProtoVer.v5 ∧ node.protoVer = ProtoVer.v5 then w.packet.properties else none

/-- Every message has the properties for its node, in an object that no other has, and a node is
sent what it is sent when there is no other node. -/
structure PropsApart (nng : Nng) (w : Work) (conf : Conf) (bs : List BuiltMsg) : Prop where
  own : ∀ b ∈ bs, ∀ node, conf.bridgeNodes[b.msg.node]? = some node →
    b.msg.properties = ownProps w node
  apart : (bs.filterMap (·.props)).Nodup
  alone : bs.map (·.msg) = conf.bridgeNodes.zipIdx.flatMap (fun n =>
    (bridgePubHandler nng w { conf with bridgeNodes := [n.1] }).map (fun m =>
      { m with node := n.2 }))

/-- No entry of a node without MQTT 5 comes behind one of a node with it. -/
def OlderFirst (xs : List BridgeHit) : Prop :=
  xs.Pairwise (fun x y => x.node.protoVer = ProtoVer.v5 → y.node.protoVer = ProtoVer.v5)

def ownMsg (nng : Nng) (w : Work) (x : BridgeHit) : ForwardMsg :=
  hitMsg w x (forwardTopic nng w x.entry) (ownProps w x.node)

section Hits

variable {nng : Nng} {w : Work} {nodes : List BridgeNode} {props : Option PropertyList}

theorem getElem?_of_mem_bridgeHits {x : BridgeHit} (hx : x ∈ bridgeHits nng w 0 nodes) :
    nodes[x.index]? = some x.node := (mem_bridgeHits_iff.mp hx).1

theorem hitProps_of_v5 {x : BridgeHit} (hw : w.protoVer = ProtoVer.v5)
    (hx : x.node.protoVer = ProtoVer.v5) (props : Option PropertyList) :
    hitProps w props x = w.packet.properties := if_pos ⟨hw, hx⟩

theorem hitProps_of_older {x : BridgeHit} (hx : x.node.protoVer ≠ ProtoVer.v5)
    (props : Option PropertyList) : hitProps w props x = props :=
  if_neg (fun h => hx h.2)

theorem ownProps_eq_hitProps (x : BridgeHit) : ownProps w x.node = hitProps w none x := rfl

theorem sendHits_cons (x : BridgeHit) (xs : List BridgeHit) :
    sendHits nng w props (x :: xs) =
      hitMsg w x (forwardTopic nng w x.entry) (hitProps w props x) ::
        sendHits nng w (hitProps w props x) xs := rfl

theorem sendHits_eq_iff (xs : List BridgeHit) (hxs : ∀ x ∈ xs, nodes[x.index]? = some x.node) :
    sendHits nng w props xs = xs.map (ownMsg nng w) ↔
      ∀ m ∈ sendHits nng w props xs, ∀ node, nodes[m.node]? = some node →
        m.properties = ownProps w node := by
  induction xs generalizing props with
  | nil => exact iff_of_true rfl (fun m hm => absurd hm List.not_mem_nil)
  | cons x xs ih =>
    obtain ⟨hx, hxs⟩ := List.forall_mem_cons.mp hxs
    rw [sendHits_cons, List.map_cons, List.cons_eq_cons, List.forall_mem_cons, ih hxs]
    refine and_congr_left (fun _ => ⟨fun heq node hnode => ?_, fun h => ?_⟩)
    · obtain rfl := Option.some.inj (hx.symm.trans hnode)
      exact congrArg ForwardMsg.properties heq
    · unfold ownMsg
      rw [← h x.node hx]
      rfl

/-- With properties in the packet, what is in hand is right at every entry as long as no entry
without MQTT 5 comes behind one with it. -/
theorem sendHits_own_iff {l : PropertyList} (hw : w.protoVer = ProtoVer.v5)
    (hl : w.packet.properties = some l) (xs : List BridgeHit)
    (hprops : props = none ∨ props = some l) :
    sendHits nng w props xs = xs.map (ownMsg nng w) ↔
      (props ≠ none → ∀ x ∈ xs, x.node.protoVer = ProtoVer.v5) ∧ OlderFirst xs := by
  induction xs generalizing props with
  | nil => exact iff_of_true rfl ⟨fun _ x hx => absurd hx List.not_mem_nil, .nil⟩
  | cons x xs ih =>
    rw [sendHits_cons, List.map_cons, List.cons_eq_cons, OlderFirst, List.pairwise_cons,
      List.forall_mem_cons]
    by_cases hx : x.node.protoVer = ProtoVer.v5
    · have hhead : hitMsg w x (forwardTopic nng w x.entry) (hitProps w props x) =
          ownMsg nng w x := by
        rw [ownMsg, ownProps_eq_hitProps, hitProps_of_v5 hw hx, hitProps_of_v5 hw hx]
      rw [hitProps_of_v5 hw hx, hl] at hhead ⊢
      rw [ih (Or.inr rfl)]
      constructor
      · rintro ⟨-, hall, hrest⟩
        exact ⟨fun _ => ⟨hx, hall nofun⟩, fun y hy _ => hall nofun y hy, hrest⟩
      · rintro ⟨-, hall, hrest⟩
        exact ⟨hhead, fun _ y hy => hall y hy hx, hrest⟩
    · rw [hitProps_of_older hx, ih hprops]
      constructor
      · rintro ⟨hhead, -, hrest⟩
        have hnone : props = none := by
          have heq := congrArg ForwardMsg.properties hhead
          rwa [ownMsg, ownProps_eq_hitProps, hitProps_of_older hx] at heq
        exact ⟨fun h => absurd hnone h, fun y _ h => absurd h hx, hrest⟩
      · rintro ⟨hall, -, hrest⟩
        have hnone : props = none := by
          by_contra h
          exact hx (hall h).1
        refine ⟨?_, fun h => absurd hnone h, hrest⟩
        rw [ownMsg, ownProps_eq_hitProps, hitProps_of_older hx, hnone]

/-- There is nothing to leave behind without MQTT 5 or without properties. -/
theorem sendHits_own_of_none (h : w.protoVer ≠ ProtoVer.v5 ∨ w.packet.properties = none)
    (xs : List BridgeHit) : sendHits nng w none xs = xs.map (ownMsg nng w) := by
  have hprops : ∀ x, hitProps w none x = none := by
    intro x
    unfold hitProps
    split_ifs with hv5
    · exact h.resolve_left (fun hne => hne hv5.1)
    · rfl
  induction xs with
  | nil => rfl
  | cons x xs ih =>
    rw [sendHits_cons, hprops, ih, List.map_cons, ownMsg, ownProps_eq_hitProps, hprops]

theorem sendHits_own (xs : List BridgeHit) :
    sendHits nng w none xs = xs.map (ownMsg nng w) ↔
      w.protoVer ≠ ProtoVer.v5 ∨ w.packet.properties = none ∨ OlderFirst xs := by
  by_cases hw : w.protoVer = ProtoVer.v5
  · cases hl : w.packet.properties with
    | none => exact iff_of_true (sendHits_own_of_none (Or.inr hl) xs) (Or.inr (Or.inl rfl))
    | some l =>
      rw [sendHits_own_iff hw hl xs (Or.inl rfl)]
      constructor
      · exact fun h => Or.inr (Or.inr h.2)
      · rintro (hne | hnone | hfirst)
        · exact absurd hw hne
        · cases hnone
        · exact ⟨fun h => absurd rfl h, hfirst⟩
  · exact iff_of_true (sendHits_own_of_none (Or.inl hw) xs) (Or.inl hw)

theorem bridgeHits_single (i : ℕ) (node : BridgeNode) :
    bridgeHits nng w i [node] =
      if node.enable then entryHits nng w i node node.forwards else [] := by
  split_ifs with hen
  · rw [bridgeHits_cons_of_enabled i [] hen]
    exact List.append_nil _
  · rw [bridgeHits_cons_of_disabled i [] hen]
    rfl

theorem bridgeHits_eq_flatMap (i : ℕ) (nodes : List BridgeNode) :
    bridgeHits nng w i nodes =
      (nodes.zipIdx i).flatMap (fun n => bridgeHits nng w n.2 [n.1]) := by
  induction nodes generalizing i with
  | nil => rfl
  | cons node nodes ih =>
    rw [List.zipIdx_cons, List.flatMap_cons, ← ih, bridgeHits_single]
    split_ifs with hen
    · rw [bridgeHits_cons_of_enabled i nodes hen]
    · rw [bridgeHits_cons_of_disabled i nodes hen, List.nil_append]

theorem olderFirst_single (i : ℕ) (node : BridgeNode) :
    OlderFirst (bridgeHits nng w i [node]) := by
  rw [bridgeHits_single]
  split_ifs
  · exact List.pairwise_map.mpr (List.pairwise_of_forall (fun _ _ h => h))
  · exact .nil

theorem bridgeNodes_single (node : BridgeNode) (i : ℕ) :
    (bridgeNodes nng w 0 none [node]).map (fun m => { m with node := i }) =
      (bridgeHits nng w i [node]).map (ownMsg nng w) := by
  have hsend : sendHits nng w none (bridgeHits nng w 0 [node]) = _ :=
    (sendHits_own _).mpr (Or.inr (Or.inr (olderFirst_single 0 node)))
  rw [bridgeNodes_eq, hsend, bridgeHits_single, bridgeHits_single]
  split_ifs
  · simp only [entryHits, List.map_map]
    rfl
  · rfl

/-- With the right messages, every node is sent what it is sent alone. -/
theorem flatMap_bridgeNodes_single (nodes : List BridgeNode) :
    nodes.zipIdx.flatMap (fun n =>
      (bridgeNodes nng w 0 none [n.1]).map (fun m => { m with node := n.2 })) =
      (bridgeHits nng w 0 nodes).map (ownMsg nng w) := by
  rw [bridgeHits_eq_flatMap, List.map_flatMap]
  simp only [bridgeNodes_single]

theorem hitPtrs_cons (c : Option ℕ × ℕ) (x : BridgeHit) (xs : List BridgeHit) :
    hitPtrs w c (x :: xs) = (hitPtr w c x).1 :: hitPtrs w (hitPtr w c x) xs := rfl

/-- The objects that are made are counted up, and none is kept for a second message. -/
theorem nodup_hitPtrs {l : PropertyList} (hw : w.protoVer = ProtoVer.v5)
    (hl : w.packet.properties = some l) {c : Option ℕ} (n : ℕ) {xs : List BridgeHit}
    (hc : c ≠ none → ∀ x ∈ xs, x.node.protoVer = ProtoVer.v5) (hxs : OlderFirst xs) :
    ((hitPtrs w (c, n) xs).filterMap id).Nodup ∧
      ∀ q ∈ (hitPtrs w (c, n) xs).filterMap id, n ≤ q := by
  induction xs generalizing c n with
  | nil => exact ⟨.nil, fun q hq => absurd hq List.not_mem_nil⟩
  | cons x xs ih =>
    obtain ⟨hbehind, hxs⟩ := List.pairwise_cons.mp hxs
    rw [hitPtrs_cons]
    by_cases hx : x.node.protoVer = ProtoVer.v5
    · have hptr : hitPtr w (c, n) x = (some n, n + 1) := by
        rw [hitPtr, if_pos ⟨hw, hx⟩, hl]
      obtain ⟨hnodup, hle⟩ := ih (c := some n) (n + 1) (fun _ y hy => hbehind y hy hx) hxs
      rw [hptr, List.filterMap_cons_some (f := id) (b := n) rfl, List.nodup_cons,
        List.forall_mem_cons]
      refine ⟨⟨fun hmem => ?_, hnodup⟩, Nat.le_refl n, fun q hq => ?_⟩
      · exact Nat.not_succ_le_self n (hle n hmem)
      · exact Nat.le_of_succ_le (hle q hq)
    · have hnone : c = none := by
        by_contra h
        exact hx (hc h x List.mem_cons_self)
      subst hnone
      have hptr : hitPtr w (none, n) x = (none, n) := if_neg (fun h => hx h.2)
      rw [hptr, List.filterMap_cons_none rfl]
      exact ih n (fun h => absurd rfl h) hxs

theorem filterMap_hitPtrs_of_none (h : w.protoVer ≠ ProtoVer.v5 ∨ w.packet.properties = none)
    (n : ℕ) (xs : List BridgeHit) : (hitPtrs w (none, n) xs).filterMap id = [] := by
  have hptr : ∀ x, hitPtr w (none, n) x = (none, n) := by
    intro x
    unfold hitPtr
    split_ifs with hv5
    · rw [h.resolve_left (fun hne => hne hv5.1)]
    · rfl
  induction xs with
  | nil => rfl
  | cons x xs ih => rw [hitPtrs_cons, hptr, List.filterMap_cons_none rfl, ih]

theorem nodup_of_olderFirst (n : ℕ) {xs : List BridgeHit}
    (h : w.protoVer ≠ ProtoVer.v5 ∨ w.packet.properties = none ∨ OlderFirst xs) :
    ((hitPtrs w (none, n) xs).filterMap id).Nodup := by
  by_cases hw : w.protoVer = ProtoVer.v5
  · cases hl : w.packet.properties with
    | none =>
      rw [filterMap_hitPtrs_of_none (Or.inr hl)]
      exact .nil
    | some l =>
      rw [hl] at h
      have hfirst := (h.resolve_left (fun hne => hne hw)).resolve_left nofun
      exact (nodup_hitPtrs hw hl n (fun h => absurd rfl h) hfirst).1
  · rw [filterMap_hitPtrs_of_none (Or.inl hw)]
    exact .nil

end Hits

/-- The properties are kept apart if and only if, for a publisher with MQTT 5 and properties, no
entry of a node without MQTT 5 takes the topic behind an entry of a node with it. -/
theorem propsApart_iff {nng : Nng} {w : Work} {p : ℕ} {topic : Bytes}
    (htopic : w.packet.topicBody = some topic) (hlen : w.packet.topicLen = topic.length)
    (hremap : ∀ e : Topics, e.remoteTopicLen ≠ 0 →
      (nng.generateRepubTopic e (some topic) false).isSome = true)
    (conf : Conf) (lists : OwnedHeap PropertyList) {strings : OwnedHeap Bytes}
    (hp : strings.read p = some topic) :
    ∃ s bs, heapPubHandler nng w p conf strings lists = some (s, bs) ∧
      bs.map (·.msg) = bridgePubHandler nng w conf ∧
      (PropsApart nng w conf bs ↔
        (w.packet.topicLen > 4 ∧ w.packet.startsSys = true) ∨
          w.protoVer ≠ ProtoVer.v5 ∨ w.packet.properties = none ∨
          OlderFirst (bridgeHits nng w 0 conf.bridgeNodes)) := by
  by_cases hsys : w.packet.topicLen > 4 ∧ w.packet.startsSys = true
  · have hquiet : ∀ conf, bridgePubHandler nng w conf = [] := fun conf => if_pos hsys
    refine ⟨_, [], if_pos hsys, (hquiet conf).symm, iff_of_true ⟨nofun, .nil, ?_⟩ (Or.inl hsys)⟩
    simp [hquiet]
  · have hgo : ∀ conf, bridgePubHandler nng w conf = bridgeNodes nng w 0 none conf.bridgeNodes :=
      fun conf => if_neg hsys
    obtain ⟨s, bs, hbs, hsend, hbuilt⟩ :=
      exists_heapPubHandler htopic hlen hremap conf lists hp hsys
    refine ⟨s, bs, hbs, hbuilt.msgs.trans hsend.symm, ?_⟩
    rw [← sendHits_own, or_iff_right hsys]
    constructor
    · intro h
      rw [sendHits_eq_iff _ (fun x hx => getElem?_of_mem_bridgeHits hx), ← hbuilt.msgs]
      exact List.forall_mem_map.mpr h.own
    · intro h
      refine ⟨?_, ?_, ?_⟩
      · rw [sendHits_eq_iff _ (fun x hx => getElem?_of_mem_bridgeHits hx), ← hbuilt.msgs] at h
        exact List.forall_mem_map.mp h
      · have hnodup := nodup_of_olderFirst (w := w) lists.size ((sendHits_own _).mp h)
        rw [← hbuilt.ptrs, List.filterMap_map] at hnodup
        exact hnodup
      · rw [hbuilt.msgs, h, ← flatMap_bridgeNodes_single]
        simp only [hgo]

def taggedPublish : Work :=
  { Work.alloc .mqttBroker with
    protoVer := ProtoVer.v5
    pubPacket := some { PubPacket.zalloc with
      topicBody := some (ascii "a"), topicLen := 1, properties := some [⟨38, .raw (ascii "k")⟩] } }

def takingAll (ver : ProtoVer) : BridgeNode :=
  ⟨true, ver, [⟨ascii "#", none, none, none, none, none⟩], [], false⟩

/-- The node without MQTT 5 is the first. -/
theorem propsApart_older_first :
    let conf := { Conf.bare with bridgeNodes := [takingAll ProtoVer.v311, takingAll ProtoVer.v5] }
    ∃ s bs, heapPubHandler Nng.reference taggedPublish 0 conf ⟨[some (ascii "a")]⟩ .empty =
        some (s, bs) ∧ bs.length = 2 ∧ PropsApart Nng.reference taggedPublish conf bs := by
  intro conf
  have htopic : taggedPublish.packet.topicBody = some (ascii "a") := rfl
  have hremap : ∀ e : Topics, e.remoteTopicLen ≠ 0 →
      (Nng.reference.generateRepubTopic e (some (ascii "a")) false).isSome = true := fun _ _ => rfl
  have hp : (⟨[some (ascii "a")]⟩ : OwnedHeap Bytes).read 0 = some (ascii "a") := rfl
  have hfirst : OlderFirst (bridgeHits Nng.reference taggedPublish 0 conf.bridgeNodes) := by
    unfold OlderFirst
    decide
  obtain ⟨s, bs, hbs, hmsgs, hiff⟩ := propsApart_iff htopic rfl hremap conf .empty hp
  refine ⟨s, bs, hbs, ?_, hiff.mpr (Or.inr (Or.inr (Or.inr hfirst)))⟩
  have hlength := congrArg List.length hmsgs
  rw [List.length_map] at hlength
  exact hlength.trans (by decide)

/-- The node without MQTT 5 is the second: it is sent the properties, in the object that the message
to the first node has. -/
theorem props_shared_with_older :
    let conf := { Conf.bare with bridgeNodes := [takingAll ProtoVer.v5, takingAll ProtoVer.v311] }
    ∃ s bs, heapPubHandler Nng.reference taggedPublish 0 conf ⟨[some (ascii "a")]⟩ .empty =
        some (s, bs) ∧
      bs.map (fun b => (b.msg.node, b.msg.properties, b.props)) =
        [(0, some [⟨38, .raw (ascii "k")⟩], some 0), (1, some [⟨38, .raw (ascii "k")⟩], some 0)] ∧
      ¬ PropsApart Nng.reference taggedPublish conf bs := by
  intro conf
  refine ⟨_, _, rfl, rfl, fun h => ?_⟩
  exact absurd h.apart (by decide)

end NanoMQ
