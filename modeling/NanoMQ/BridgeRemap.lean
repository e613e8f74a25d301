import NanoMQ.BridgeCoding
import NanoMQ.BridgeStrings
import NanoMQ.ResolvedTopic

/-!
# What becomes of the topic of a message from a remote broker

`downwardTopics` is the loop of `bridge_downward_msg_coding` over the subscription entries, with the
strings it makes and frees. The first entry that takes the topic decides. Its result is a string
that was not freed, and the string that the decoder made is freed once, if there is another in its
place.
-/

namespace NanoMQ

open ByteBuffer

structure PacketTopic where
  heap : OwnedHeap Bytes
  body : ℕ
  len : ℕ
  retain : Bool

section Loop

variable (nng : Nng)

/-- What `generate_repub_topic` makes of the topic, if it is asked and succeeds. -/
def localRemap (e : Topics) (topic : Bytes) : Option Bytes :=
  if e.localTopic.length ≠ 0 then nng.generateRepubTopic e (some topic) true else none

def downwardEntry (e : Topics) (s : PacketTopic) : Option PacketTopic :=
  (s.heap.read s.body).bind (fun topic =>
    let r : TopicRef := ⟨s.heap, s.body, s.len, false⟩
    ((r.remap (localRemap nng e topic)).enclose e.pre e.suffix).bind (fun r =>
      let retain := e.retain.getD s.retain
      if r.mark then (r.heap.free s.body).map (fun h => ⟨h, r.body, r.len, retain⟩)
      else some { s with heap := r.heap, retain := retain }))

def downwardTopics : List Topics → PacketTopic → Option PacketTopic
  | [], s => some s
  | e :: es, s =>
      match e.remoteTopic with
      | none => downwardTopics es s
      | some filter =>
          (s.heap.read s.body).bind (fun topic =>
            if nng.topicFilter filter (some topic) then downwardEntry nng e s
            else downwardTopics es s)

def takesTopic (topic : Bytes) (e : Topics) : Bool :=
  e.remoteTopic.any (fun filter => nng.topicFilter filter (some topic))

end Loop

/-- What is left of a packet that had the topic `t` at `p`, when it has the topic `t'` now. -/
structure Remapped (h : OwnedHeap Bytes) (p : ℕ) (t' : Bytes) (replaced : Bool) (s : PacketTopic) :
    Prop where
  read : s.heap.read s.body = some t'
  len : s.len = t'.length
  body : s.body = p ↔ replaced = false
  freed : s.heap.Freed p ↔ replaced = true
  moved : h.Moved s.heap (some p) (some s.body)

section Proofs

variable {nng : Nng} {e : Topics} {s : PacketTopic} {t : Bytes}

theorem exists_downwardEntry (nng : Nng) (e : Topics) (ht : s.heap.read s.body = some t)
    (hlen : s.len = t.length) :
    ∃ s', downwardEntry nng e s = some s' ∧ s'.retain = e.retain.getD s.retain ∧
      Remapped s.heap s.body (downwardTopic nng e t).1 (downwardTopic nng e t).2 s' := by
  have hstart : TopicRef.Owns s.heap s.body ⟨s.heap, s.body, s.len, false⟩ t := by
    rw [hlen]
    exact TopicRef.owns_start ht
  obtain ⟨hremap, hmark⟩ := hstart.remap rfl (localRemap nng e t)
  obtain ⟨r, hr, howns, hmark'⟩ := hremap.enclose e.pre e.suffix
  rw [hmark] at hmark'
  have hlt := OwnedHeap.lt_size_of_read ht
  have hresult : downwardTopic nng e t =
      (e.pre.getD [] ++ (localRemap nng e t).getD t ++ e.suffix.getD [], r.mark) := by
    rw [hmark']
    rfl
  rw [hresult]
  unfold downwardEntry
  rw [ht, Option.bind_some]
  dsimp only
  rw [hr, Option.bind_some]
  have hkept : r.heap.read s.body = some t := by rw [howns.moved.frame _ hlt nofun, ht]
  cases hm : r.mark with
  | false =>
    have hmoved := howns.moved
    have hread := howns.read
    rw [howns.unmarked hm, hkept] at hread
    rw [hm] at hmoved
    rw [← Option.some.inj hread]
    refine ⟨_, rfl, rfl, hkept, hlen, iff_of_true rfl rfl, iff_of_false ?_ nofun,
      hmoved.keep s.body⟩
    exact fun hfreed => Option.some_ne_none t (hkept.symm.trans hfreed.read)
  | true =>
    have hmoved := howns.moved
    rw [hm] at hmoved
    have hplace : s.heap.size ≤ r.body := (hmoved.place r.body rfl).resolve_left nofun
    have hne : r.body ≠ s.body := by omega
    obtain ⟨h', hfree⟩ := OwnedHeap.exists_free hkept
    obtain ⟨-, hfreed, hframe⟩ := OwnedHeap.of_free hfree
    refine ⟨⟨h', r.body, r.len, e.retain.getD s.retain⟩, ?_, rfl, ?_, howns.len,
      iff_of_false hne nofun, iff_of_true hfreed rfl, hmoved.instead hfree⟩
    · rw [if_pos rfl, hfree]
      rfl
    · exact (hframe r.body hne).trans howns.read

theorem downwardTopics_eq (es : List Topics) (ht : s.heap.read s.body = some t) :
    downwardTopics nng es s =
      (es.find? (takesTopic nng t)).elim (some s) (fun e => downwardEntry nng e s) := by
  induction es with
  | nil => rfl
  | cons e es ih =>
    rw [downwardTopics, List.find?_cons]
    cases hremote : e.remoteTopic with
    | none =>
      have htakes : takesTopic nng t e = false := by
        rw [takesTopic, hremote]
        rfl
      rw [htakes]
      exact ih
    | some filter =>
      have htakes : takesTopic nng t e = nng.topicFilter filter (some t) := by
        rw [takesTopic, hremote]
        rfl
      dsimp only
      rw [ht, Option.bind_some, htakes]
      cases nng.topicFilter filter (some t) with
      | true => rfl
      | false => exact ih

theorem downwardTopic_of_unchanged (h : ¬ (downwardTopic nng e t).2 = true) :
    t = (downwardTopic nng e t).1 := by
  unfold downwardTopic at h ⊢
  dsimp only at h ⊢
  rw [Bool.not_eq_true, Bool.or_eq_false_iff, Bool.or_eq_false_iff, Option.isSome_eq_false_iff,
    Option.isSome_eq_false_iff, Option.isSome_eq_false_iff, Option.isNone_iff_eq_none,
    Option.isNone_iff_eq_none, Option.isNone_iff_eq_none] at h
  rw [h.1.1, h.1.2, h.2]
  exact (List.append_nil t).symm

theorem topicLen_decodePubMessage (hlaw : nng.LawfulStr) {m : Msg} {ver : ProtoVer}
    (hpub : m.getType = PacketType.publish)
    (hok : (decodePubMessage nng m ver PubPacket.zalloc).code = ReasonCode.success)
    (htopic : (decodePubMessage nng m ver PubPacket.zalloc).packet.topicBody = some t) :
    (decodePubMessage nng m ver PubPacket.zalloc).packet.topicLen = t.length := by
  have hacc := (decodePubMessage_success_iff hpub PubPacket.zalloc).mp hok
  rw [hacc.decodePubMessage_eq hpub] at htopic ⊢
  exact (decoded_topicOk hlaw hacc htopic).2

/-- The packet that `bridge_downward_msg_coding` leaves of a message that was decoded. -/
theorem packet_bridgeDownwardMsgCoding {w : Work} {m : Msg} {node : BridgeNode}
    (hnode : w.node = some node)
    (hok : (decodePubMessage nng m (protoverOf m.connParam) PubPacket.zalloc).code =
      ReasonCode.success)
    (htopic : (decodePubMessage nng m (protoverOf m.connParam) PubPacket.zalloc).packet.topicBody =
      some t)
    (hlen : (decodePubMessage nng m (protoverOf m.connParam) PubPacket.zalloc).packet.topicLen =
      t.length) :
    let pkt := (decodePubMessage nng m (protoverOf m.connParam) PubPacket.zalloc).packet
    (bridgeDownwardMsgCoding nng w m).packet =
      (node.subs.find? (takesTopic nng t)).elim pkt (fun e =>
        { pkt with
          topicBody := some (downwardTopic nng e t).1
          topicLen := (downwardTopic nng e t).1.length
          fixedHeader := { pkt.fixedHeader with
            retain := e.retain.getD pkt.fixedHeader.retain } }) := by
  intro pkt
  have hload : (w.load m).protoVer = protoverOf m.connParam := rfl
  have hnode' : (w.load m).node = some node := hnode
  have htakes : (fun e : Topics => e.remoteTopic.any (fun r => nng.topicFilter r (some t))) =
      takesTopic nng t := rfl
  unfold bridgeDownwardMsgCoding
  dsimp only
  rw [hload, if_neg (not_not.mpr hok), htopic, hnode']
  dsimp only
  rw [htakes]
  cases node.subs.find? (takesTopic nng t) with
  | none => rfl
  | some e =>
    dsimp only [Option.elim_some]
    unfold downwardRemap
    dsimp only
    split_ifs with hchanged
    · rfl
    · rw [← downwardTopic_of_unchanged hchanged, ← htopic, ← hlen]
      rfl

end Proofs

/-- The topic of a message from a remote broker is changed by the first entry that takes it, and by
no other. The strings are sound: what the packet points to was not freed, its old string was freed
if and only if there is another in its place, and so was every string in between. -/
theorem downwardTopics_remaps {nng : Nng} (hlaw : nng.LawfulStr) {w : Work} {m : Msg}
    {node : BridgeNode} {t : Bytes} {h : OwnedHeap Bytes} {p : ℕ}
    (hpub : m.getType = PacketType.publish) (hnode : w.node = some node)
    (hok : (decodePubMessage nng m (protoverOf m.connParam) PubPacket.zalloc).code =
      ReasonCode.success)
    (htopic : (decodePubMessage nng m (protoverOf m.connParam) PubPacket.zalloc).packet.topicBody =
      some t) (hread : h.read p = some t) :
    let pkt := (decodePubMessage nng m (protoverOf m.connParam) PubPacket.zalloc).packet
    let pkt' := (bridgeDownwardMsgCoding nng w m).packet
    ∃ s, downwardTopics nng node.subs ⟨h, p, pkt.topicLen, pkt.fixedHeader.retain⟩ = some s ∧
      (pkt'.topicBody = s.heap.read s.body ∧ pkt'.topicLen = s.len ∧
        pkt'.fixedHeader.retain = s.retain) ∧
      (node.subs.find? (takesTopic nng t) = none → pkt' = pkt ∧ s.heap = h ∧ s.body = p) ∧
      ∀ e, node.subs.find? (takesTopic nng t) = some e →
        let t' := e.pre.getD [] ++ (localRemap nng e t).getD t ++ e.suffix.getD []
        let replaced := (localRemap nng e t).isSome || e.pre.isSome || e.suffix.isSome
        pkt' = { pkt with
          topicBody := some t'
          topicLen := t'.length
          fixedHeader := { pkt.fixedHeader with
            retain := e.retain.getD pkt.fixedHeader.retain } } ∧
        s.heap.read s.body = some t' ∧ (s.heap.Freed p ↔ replaced = true) ∧
        (s.body = p ↔ replaced = false) ∧
        (∀ q, q < h.size → q ≠ p → s.heap.read q = h.read q) ∧
        ∀ q, h.size ≤ q → q < s.heap.size → q ≠ s.body → s.heap.Freed q := by
  intro pkt pkt'
  have hlen : pkt.topicLen = t.length := topicLen_decodePubMessage hlaw hpub hok htopic
  have hpkt' : pkt' = _ := packet_bridgeDownwardMsgCoding hnode hok htopic hlen
  rw [downwardTopics_eq node.subs hread]
  cases hfind : node.subs.find? (takesTopic nng t) with
  | none =>
    rw [hfind] at hpkt'
    rw [hpkt']
    exact ⟨_, rfl, ⟨htopic.trans hread.symm, rfl, rfl⟩, fun _ => ⟨rfl, rfl, rfl⟩, nofun⟩
  | some e =>
    rw [hfind] at hpkt'
    rw [hpkt']
    obtain ⟨s, hs, hretain, hsound⟩ := exists_downwardEntry nng e (s := ⟨h, p, pkt.topicLen,
      pkt.fixedHeader.retain⟩) hread hlen
    refine ⟨s, hs, ⟨hsound.read.symm, hsound.len.symm, hretain.symm⟩, nofun, ?_⟩
    rintro e' heq
    obtain rfl := Option.some.inj heq
    refine ⟨rfl, hsound.read, hsound.freed, hsound.body, fun q hq hne => ?_,
      fun q hle hlt hne => ?_⟩
    · exact hsound.moved.frame q hq (fun heq => hne (Option.some.inj heq).symm)
    · apply OwnedHeap.freed_iff.mpr
      exact ⟨hlt, hsound.moved.freed q (Or.inl hle) (fun heq => hne (Option.some.inj heq).symm)⟩

/-- The second entry takes the topic and puts text in front of it. -/
theorem downwardTopics_remaps_second :
    let other : Topics := ⟨[], some (ascii "b"), none, none, none, none⟩
    let e : Topics := ⟨[], some (ascii "a"), some (ascii "site/"), none, some true, none⟩
    let w := { Work.alloc .mqttBridge with
      node := some ⟨true, ProtoVer.v311, [], [other, e], false⟩ }
    (bridgeDownwardMsgCoding Nng.reference w (simplePublish (ascii "a"))).packet.topicBody =
      some (ascii "site/a") := by
  intro other e w
  obtain ⟨s, -, -, -, htakes⟩ := downwardTopics_remaps (m := simplePublish (ascii "a")) (w := w)
    (h := ⟨[some (ascii "a")]⟩) (p := 0) Reference.lawfulStr rfl rfl (by decide) (by decide) rfl
  have hfind : [other, e].find? (takesTopic Nng.reference (ascii "a")) = some e := by decide
  rw [(htakes e hfind).1]
  decide

end NanoMQ
