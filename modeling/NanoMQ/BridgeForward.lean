import NanoMQ.BridgeHits
import NanoMQ.BridgeStrings

/-!
# What a bridge forwards

`bridge_pub_handler` builds one message for each entry of an enabled node that takes the topic, in
the order of the configuration. `heapPubHandler` is the function with the strings and the property
lists that it makes: it frees the strings of an entry before it goes on, and the string of the
packet stays.
-/

namespace NanoMQ

open ByteBuffer

structure BridgeHeaps where
  strings : OwnedHeap Bytes
  lists : OwnedHeap PropertyList
  props : Option ℕ

structure BuiltMsg where
  msg : ForwardMsg
  props : Option ℕ

section Handler

variable (nng : Nng) (w : Work) (p : ℕ)

/-- `mqtt_property_dup` to `props`, which both sides must be of MQTT 5 for. -/
def dupProps (node : BridgeNode) (s : BridgeHeaps) : BridgeHeaps :=
  if w.protoVer = ProtoVer.v5 ∧ node.protoVer = ProtoVer.v5 then
    match w.packet.properties with
    | none => { s with props := none }
    | some l => { s with lists := s.lists.alloc l, props := some s.lists.size }
  else s

/-- The string of `generate_repub_topic`, if there is a remote topic. A fault stands for `NULL`,
which is not looked for. -/
def remoteRemap (e : Topics) (topic : Bytes) : Option (Option Bytes) :=
  if e.remoteTopicLen ≠ 0 then (nng.generateRepubTopic e (some topic) false).map some else some none

/-- The body of the loops for an entry that takes the topic, which is the string `p`. -/
def buildMsg (x : BridgeHit) (topic : Bytes) (s : BridgeHeaps) :
    Option (BridgeHeaps × BuiltMsg) :=
  let s := dupProps w x.node s
  (remoteRemap nng x.entry topic).bind (fun new =>
    let r : TopicRef := ⟨s.strings, p, w.packet.topicLen, false⟩
    ((r.remap new).enclose x.entry.pre x.entry.suffix).bind (fun r =>
      (r.heap.read r.body).bind (fun text =>
        let msg := hitMsg w x (some text) (s.props.bind s.lists.read)
        (if r.mark then r.heap.free r.body else some r.heap).map (fun h =>
          ({ s with strings := h }, ⟨msg, s.props⟩)))))

def remappedTopic (e : Topics) (topic : Bytes) : Bytes :=
  if e.remoteTopicLen ≠ 0 then (nng.generateRepubTopic e (some topic) false).getD [] else topic

def heapEntries (i : ℕ) (node : BridgeNode) :
    List Topics → BridgeHeaps → Option (BridgeHeaps × List BuiltMsg)
  | [], s => some (s, [])
  | e :: es, s =>
      (s.strings.read p).bind (fun topic =>
        if nng.topicFilter e.localTopic (some topic) then
          (buildMsg nng w p ⟨i, node, e⟩ topic s).bind (fun r =>
            (heapEntries i node es r.1).map (fun t => (t.1, r.2 :: t.2)))
        else heapEntries i node es s)

def heapNodes : ℕ → List BridgeNode → BridgeHeaps → Option (BridgeHeaps × List BuiltMsg)
  | _, [], s => some (s, [])
  | i, node :: nodes, s =>
      if node.enable then
        (heapEntries nng w p i node node.forwards s).bind (fun r =>
          (heapNodes (i + 1) nodes r.1).map (fun t => (t.1, r.2 ++ t.2)))
      else heapNodes (i + 1) nodes s

def heapPubHandler (conf : Conf) (strings : OwnedHeap Bytes) (lists : OwnedHeap PropertyList) :
    Option (BridgeHeaps × List BuiltMsg) :=
  if w.packet.topicLen > 4 ∧ w.packet.startsSys = true then some (⟨strings, lists, none⟩, [])
  else heapNodes nng w p 0 conf.bridgeNodes ⟨strings, lists, none⟩

end Handler

/-- What a part of the loops leaves behind, for the entries that took the topic in it. No string
that came up in it is left. -/
structure Built (nng : Nng) (w : Work) (props : Option PropertyList) (xs : List BridgeHit)
    (s s' : BridgeHeaps) (bs : List BuiltMsg) : Prop where
  msgs : bs.map (·.msg) = sendHits nng w props xs
  ptrs : bs.map (·.props) = hitPtrs w (s.props, s.lists.size) xs
  props : s'.props.map s'.lists.read = (xs.foldl (hitProps w) props).map some
  objects : (s'.props, s'.lists.size) = xs.foldl (hitPtr w) (s.props, s.lists.size)
  strings : s.strings.Moved s'.strings none none

section Run

variable {nng : Nng} {w : Work} {p : ℕ} {topic : Bytes} {props : Option PropertyList}
  {s s' s'' : BridgeHeaps}

theorem Built.nil (h : s.props.map s.lists.read = props.map some) :
    Built nng w props [] s s [] :=
  ⟨rfl, rfl, h, rfl, .refl s.strings none⟩

theorem Built.append {xs ys : List BridgeHit} {bs cs : List BuiltMsg}
    (h₁ : Built nng w props xs s s' bs)
    (h₂ : Built nng w (xs.foldl (hitProps w) props) ys s' s'' cs) :
    Built nng w props (xs ++ ys) s s'' (bs ++ cs) where
  msgs := by
    rw [List.map_append, h₁.msgs, h₂.msgs, sendHits, scanMap_append]
  ptrs := by
    rw [List.map_append, h₁.ptrs, h₂.ptrs, h₁.objects, hitPtrs, scanMap_append]
  props := by rw [List.foldl_append, h₂.props]
  objects := by rw [List.foldl_append, ← h₁.objects, h₂.objects]
  strings := h₁.strings.trans h₂.strings

theorem dupProps_strings (node : BridgeNode) (s : BridgeHeaps) :
    (dupProps w node s).strings = s.strings := by
  unfold dupProps
  split_ifs
  · cases w.packet.properties <;> rfl
  · rfl

theorem dupProps_objects (x : BridgeHit) (s : BridgeHeaps) :
    ((dupProps w x.node s).props, (dupProps w x.node s).lists.size) =
      hitPtr w (s.props, s.lists.size) x := by
  unfold dupProps hitPtr
  split_ifs
  · cases w.packet.properties with
    | none => rfl
    | some l => rw [OwnedHeap.size_alloc]
  · rfl

/-- `props` stands for the list in hand, which is a copy of the one of the packet. -/
theorem dupProps_props (x : BridgeHit) (h : s.props.map s.lists.read = props.map some) :
    (dupProps w x.node s).props.map (dupProps w x.node s).lists.read =
      (hitProps w props x).map some := by
  unfold dupProps hitProps
  split_ifs
  · cases w.packet.properties with
    | none => rfl
    | some l => exact congrArg some (s.lists.read_alloc_self l)
  · exact h

theorem bind_read_of_map (h : s.props.map s.lists.read = props.map some) :
    s.props.bind s.lists.read = props := by
  cases hs : s.props with
  | none =>
    rw [hs] at h
    cases props with
    | none => rfl
    | some l => cases h
  | some q =>
    rw [hs] at h
    cases props with
    | none => cases h
    | some l => exact Option.some.inj h

variable (htopic : w.packet.topicBody = some topic) (hlen : w.packet.topicLen = topic.length)
  (hremap : ∀ e : Topics, e.remoteTopicLen ≠ 0 →
    (nng.generateRepubTopic e (some topic) false).isSome = true)

include htopic hremap in
theorem exists_remoteRemap (e : Topics) :
    ∃ new, remoteRemap nng e topic = some new ∧
      new.getD topic = remappedTopic nng e topic ∧
      forwardTopic nng w e =
        some (e.pre.getD [] ++ remappedTopic nng e topic ++ e.suffix.getD []) := by
  unfold remoteRemap forwardTopic remappedTopic
  rw [htopic]
  by_cases hremote : e.remoteTopicLen ≠ 0
  · obtain ⟨t, ht⟩ := Option.isSome_iff_exists.mp (hremap e hremote)
    simp only [if_pos hremote, ht]
    exact ⟨some t, rfl, rfl, rfl⟩
  · simp only [if_neg hremote]
    exact ⟨none, rfl, rfl, rfl⟩

include htopic hlen hremap in
theorem exists_buildMsg (x : BridgeHit) (hp : s.strings.read p = some topic)
    (hprops : s.props.map s.lists.read = props.map some) :
    ∃ s' b, buildMsg nng w p x topic s = some (s', b) ∧ Built nng w props [x] s s' [b] := by
  obtain ⟨new, hnew, htext, hforward⟩ := exists_remoteRemap htopic hremap x.entry
  have hstart : TopicRef.Owns s.strings p ⟨(dupProps w x.node s).strings, p, w.packet.topicLen,
      false⟩ topic := by
    rw [dupProps_strings, hlen]
    exact TopicRef.owns_start hp
  obtain ⟨hown, -⟩ := hstart.remap rfl new
  obtain ⟨r, hr, howns, -⟩ := hown.enclose x.entry.pre x.entry.suffix
  rw [htext] at howns
  have hfree : ∃ h, (if r.mark then r.heap.free r.body else some r.heap) = some h ∧
      s.strings.Moved h none none := by
    have hmoved := howns.moved
    cases hmark : r.mark with
    | false =>
      rw [hmark] at hmoved
      exact ⟨r.heap, rfl, hmoved⟩
    | true =>
      rw [hmark] at hmoved
      obtain ⟨h, hfree⟩ := OwnedHeap.exists_free howns.read
      exact ⟨h, hfree, hmoved.trans (.release hfree)⟩
  obtain ⟨h, hh, hmoved⟩ := hfree
  have hlists := dupProps_props (w := w) x hprops
  unfold buildMsg
  dsimp only
  rw [hnew, Option.bind_some, hr, Option.bind_some, howns.read, Option.bind_some, hh,
    bind_read_of_map hlists]
  refine ⟨_, _, rfl, ?_, ?_, hlists, dupProps_objects x s, hmoved⟩
  · rw [← hforward]
    rfl
  · exact congrArg (fun c => [c.1]) (dupProps_objects x s)

include htopic hlen hremap in
theorem exists_heapEntries (i : ℕ) (node : BridgeNode) (es : List Topics)
    (hp : s.strings.read p = some topic)
    (hprops : s.props.map s.lists.read = props.map some) :
    ∃ s' bs, heapEntries nng w p i node es s = some (s', bs) ∧
      Built nng w props (entryHits nng w i node es) s s' bs := by
  induction es generalizing s props with
  | nil => exact ⟨s, [], rfl, .nil hprops⟩
  | cons e es ih =>
    rw [heapEntries, hp, Option.bind_some, ← htopic]
    by_cases hmatch : nng.topicFilter e.localTopic w.packet.topicBody = true
    · obtain ⟨s₁, b, hb, hbuilt⟩ :=
        exists_buildMsg htopic hlen hremap ⟨i, node, e⟩ hp hprops
      have hp₁ : s₁.strings.read p = some topic := by
        rw [hbuilt.strings.frame p (OwnedHeap.lt_size_of_read hp) nofun, hp]
      obtain ⟨s₂, bs, hbs, hrest⟩ := ih hp₁ hbuilt.props
      rw [if_pos hmatch, entryHits_cons_of_match i node es hmatch, hb, Option.bind_some, hbs]
      exact ⟨s₂, b :: bs, rfl, hbuilt.append hrest⟩
    · rw [if_neg hmatch, entryHits_cons_of_no_match i node es hmatch]
      exact ih hp hprops

include htopic hlen hremap in
theorem exists_heapNodes (i : ℕ) (nodes : List BridgeNode) (hp : s.strings.read p = some topic)
    (hprops : s.props.map s.lists.read = props.map some) :
    ∃ s' bs, heapNodes nng w p i nodes s = some (s', bs) ∧
      Built nng w props (bridgeHits nng w i nodes) s s' bs := by
  induction nodes generalizing i s props with
  | nil => exact ⟨s, [], rfl, .nil hprops⟩
  | cons node nodes ih =>
    rw [heapNodes]
    by_cases hen : node.enable = true
    · obtain ⟨s₁, bs, hbs, hbuilt⟩ :=
        exists_heapEntries htopic hlen hremap i node node.forwards hp hprops
      have hp₁ : s₁.strings.read p = some topic := by
        rw [hbuilt.strings.frame p (OwnedHeap.lt_size_of_read hp) nofun, hp]
      obtain ⟨s₂, cs, hcs, hrest⟩ := ih (i + 1) hp₁ hbuilt.props
      rw [if_pos hen, bridgeHits_cons_of_enabled i nodes hen, hbs, Option.bind_some, hcs]
      exact ⟨s₂, bs ++ cs, rfl, hbuilt.append hrest⟩
    · rw [if_neg hen, bridgeHits_cons_of_disabled i nodes hen]
      exact ih (i + 1) hp hprops

include htopic hlen hremap in
/-- The whole handler, for a topic that is not one of the system. -/
theorem exists_heapPubHandler (conf : Conf) (lists : OwnedHeap PropertyList)
    {strings : OwnedHeap Bytes} (hp : strings.read p = some topic)
    (hsys : ¬ (w.packet.topicLen > 4 ∧ w.packet.startsSys = true)) :
    ∃ s bs, heapPubHandler nng w p conf strings lists = some (s, bs) ∧
      bridgePubHandler nng w conf = sendHits nng w none (bridgeHits nng w 0 conf.bridgeNodes) ∧
      Built nng w none (bridgeHits nng w 0 conf.bridgeNodes) ⟨strings, lists, none⟩ s bs := by
  have hnone : (none : Option ℕ).map lists.read = (none : Option PropertyList).map some := rfl
  obtain ⟨s, bs, hbs, hbuilt⟩ := exists_heapNodes htopic hlen hremap 0 conf.bridgeNodes
    (s := ⟨strings, lists, none⟩) hp hnone
  rw [heapPubHandler, if_neg hsys, bridgePubHandler, if_neg hsys, bridgeNodes_eq]
  exact ⟨s, bs, hbs, rfl, hbuilt⟩

end Run

/-- A bridge makes one message for each entry of an enabled node that takes the topic, in their
order. It faults nowhere, no string that it makes is left, and those from before are as they were,
the topic of the packet at `p` among them. -/
theorem heapPubHandler_forwards {nng : Nng} {w : Work} {p : ℕ} {topic : Bytes}
    (htopic : w.packet.topicBody = some topic) (hlen : w.packet.topicLen = topic.length)
    (hremap : ∀ e : Topics, e.remoteTopicLen ≠ 0 →
      (nng.generateRepubTopic e (some topic) false).isSome = true)
    (conf : Conf) (lists : OwnedHeap PropertyList) {strings : OwnedHeap Bytes}
    (hp : strings.read p = some topic) (hsys : w.packet.startsSys = false) :
    ∃ s bs, heapPubHandler nng w p conf strings lists = some (s, bs) ∧
      bs.map (·.msg) = bridgePubHandler nng w conf ∧
      bs.map (fun b => { b.msg with properties := none }) =
        (bridgeHits nng w 0 conf.bridgeNodes).map (fun x =>
          { node := x.index
            topic := some (x.entry.pre.getD [] ++ remappedTopic nng x.entry topic ++
              x.entry.suffix.getD [])
            payloadData := w.packet.payloadData
            payloadLen := w.packet.payloadLen
            dup := w.packet.fixedHeader.dup
            qos := x.entry.qos.getD w.packet.fixedHeader.qos
            retain := x.entry.retain.getD w.packet.fixedHeader.retain
            properties := none }) ∧
      s.strings.read p = some topic ∧
      (∀ q, q < strings.size → s.strings.read q = strings.read q) ∧
      ∀ q, strings.size ≤ q → q < s.strings.size → s.strings.Freed q := by
  have hgo : ¬ (w.packet.topicLen > 4 ∧ w.packet.startsSys = true) := by
    rw [hsys]
    exact fun h => Bool.false_ne_true h.2
  obtain ⟨s, bs, hbs, hsend, hbuilt⟩ :=
    exists_heapPubHandler htopic hlen hremap conf lists hp hgo
  have hkept : ∀ q, q < strings.size → s.strings.read q = strings.read q :=
    fun q hq => hbuilt.strings.frame q hq nofun
  refine ⟨s, bs, hbs, hbuilt.msgs.trans hsend.symm, ?_, ?_, hkept, fun q hle hlt => ?_⟩
  · have hcore := sendHits_core nng w none (bridgeHits nng w 0 conf.bridgeNodes)
    rw [← hbuilt.msgs, List.map_map] at hcore
    refine hcore.trans (List.map_congr_left (fun x _ => ?_))
    obtain ⟨-, -, -, hforward⟩ := exists_remoteRemap htopic hremap x.entry
    rw [hforward]
    rfl
  · rw [hkept p (OwnedHeap.lt_size_of_read hp), hp]
  · exact OwnedHeap.freed_iff.mpr ⟨hlt, hbuilt.strings.freed q (Or.inl hle) nofun⟩

/-- A node that is off, and one whose entry gives the topic a text in front and one behind. -/
theorem heapPubHandler_forwards_enclosed :
    let e : Topics := ⟨ascii "a", none, some (ascii "x/"), some (ascii "/y"), some true, none⟩
    let conf := { Conf.bare with
      bridgeNodes :=
        [⟨false, ProtoVer.v311, [e], [], false⟩, ⟨true, ProtoVer.v311, [e], [], false⟩] }
    let w := { Work.alloc .mqttBroker with
      pubPacket := some { PubPacket.zalloc with topicBody := some (ascii "a"), topicLen := 1 } }
    ∃ s bs, heapPubHandler Nng.reference w 0 conf ⟨[some (ascii "a")]⟩ .empty = some (s, bs) ∧
      bs.map (fun b => (b.msg.node, b.msg.topic, b.msg.retain)) =
        [(1, some (ascii "x/a/y"), true)] := by
  intro e conf w
  have htopic : w.packet.topicBody = some (ascii "a") := rfl
  have hremap : ∀ e : Topics, e.remoteTopicLen ≠ 0 →
      (Nng.reference.generateRepubTopic e (some (ascii "a")) false).isSome = true := fun _ _ => rfl
  have hp : (⟨[some (ascii "a")]⟩ : OwnedHeap Bytes).read 0 = some (ascii "a") := rfl
  obtain ⟨s, bs, hbs, hmsgs, -⟩ :=
    heapPubHandler_forwards htopic rfl hremap conf .empty hp (by decide)
  have hview := congrArg (List.map (fun m => (m.node, m.topic, m.retain))) hmsgs
  rw [List.map_map] at hview
  exact ⟨s, bs, hbs, hview.trans (by decide)⟩

end NanoMQ
