import NanoMQ.SubCtx
import NanoMQ.SubLayout

/-!
# The answer to a SUBSCRIBE

`encodeSubackMsg` writes one reason code for each node: the quality of service that was asked for
where the node still has its default code, and else the code it was marked with. So the answer tells
the client of each filter whether it went into the tables.
-/

namespace NanoMQ

open ByteBuffer

namespace ReasonCode

def packetIdentifierInUse : ReasonCode := 0x91

end ReasonCode

def TopicNode.subackCode (tn : TopicNode) : ReasonCode :=
  if tn.reasonCode = ReasonCode.grantedQos2 then UInt8.ofNat tn.options.qos else tn.reasonCode

/-- `encode_suback_msg`, into the message that held the SUBSCRIBE. -/
def encodeSubackMsg (nng : Nng) (ver : ProtoVer) (pkt : SubPacket) (msg : Msg) : Msg :=
  let body := put16 pkt.packetId ++
    (if ver = ProtoVer.v5 then (nng.encodeProperties none .suback).getD [] else []) ++
    (if pkt.packetId = 0 then [ReasonCode.packetIdentifierInUse] else []) ++
    pkt.node.map TopicNode.subackCode ++
    (if pkt.node = [] ∧ pkt.packetId ≠ 0 then [ReasonCode.unspecifiedError] else [])
  { msg with header := 0x90 :: nng.putVarInteger body.length, body := body }

theorem body_encodeSubackMsg {nng : Nng} (hempty : nng.EmptyBlock) (ver : ProtoVer)
    (pkt : SubPacket) (msg : Msg) (hid : pkt.packetId ≠ 0) (hne : pkt.node ≠ []) :
    (encodeSubackMsg nng ver pkt msg).body =
      put16 pkt.packetId ++ (if ver = ProtoVer.v5 then [0] else []) ++
        pkt.node.map TopicNode.subackCode := by
  unfold encodeSubackMsg
  simp only [hid, hne, hempty CmdType.suback, Option.getD_some, false_and, if_false,
    List.append_nil]

structure RequestNode (tn : TopicNode) (f : Bytes) : Prop where
  code : tn.reasonCode = ReasonCode.grantedQos2
  topicBody : tn.topicBody = some f
  no_nul : 0 ∉ f
  qos : (tn.options.qos : ℕ) ≤ 2

section Decoded

variable {nng : Nng} {m : Msg} {ver : ProtoVer}

theorem length_encodeEntries (es : List SubEntry) :
    3 * es.length ≤ (encodeEntries es).length := by
  induction es with
  | nil => exact Nat.zero_le _
  | cons e es ih =>
    rw [encodeEntries, List.flatMap_cons, List.length_append, e.length_encode, ← encodeEntries,
      List.length_cons]
    omega

theorem requestNodes_of_decoded (hlaw : nng.LawfulStr)
    (hptr : nng.payloadPtr m = some (subPayloadStart nng m ver))
    (hok : (decodeSubMsg nng m ver).code = ReasonCode.success)
    (hnodes : NodesOk (decodeSubMsg nng m ver).packet.node) :
    (decodeSubMsg nng m ver).packet.packetId ≠ 0 ∧
      (decodeSubMsg nng m ver).packet.node ≠ [] ∧
      (∀ tn ∈ (decodeSubMsg nng m ver).packet.node, ∃ f, RequestNode tn f) ∧
      3 * (decodeSubMsg nng m ver).packet.node.length ≤ m.body.length := by
  obtain ⟨es, hes⟩ := (decodeSubMsg_success_iff hlaw hptr).mp hok
  obtain ⟨reads, heq⟩ := hes.decodeSubMsg_eq hlaw hptr
  rw [heq] at hnodes ⊢
  obtain ⟨hne, hqos⟩ := nodesOk_nodesOf_iff.mp hnodes
  have hmap : nodesOf es = es.map SubEntry.node := by
    cases es with
    | nil => exact absurd rfl hne
    | cons e es => rfl
  have hvalid := hes.entries.valid hlaw hqos
  dsimp only
  rw [packetId_subHeader, hmap]
  refine ⟨hes.packetId, ?_, ?_, ?_⟩
  · exact fun hnil => hne (List.map_eq_nil_iff.mp hnil)
  · intro tn htn
    obtain ⟨e, he, rfl⟩ := List.mem_map.mp htn
    exact ⟨e.filter, rfl, rfl, hlaw.utf8_no_nul _ (hvalid e he).utf8, hqos e he⟩
  · have hpayload := hes.entries.drop_eq
    rw [List.drop_zero] at hpayload
    have hlen := length_encodeEntries es
    rw [← hpayload, length_subPayload] at hlen
    rw [List.length_map]
    omega

end Decoded

section Codes

variable {nng : Nng} {conf : Conf} {env : PubEnv} {cparam : Option ConnParam} {pid : ℕ}
  {tn : TopicNode} {f : Bytes}

theorem RequestNode.allowedFilter_eq (h : RequestNode tn f) :
    allowedFilter nng conf cparam tn =
      if subAclDenies nng conf cparam f then none else some f := by
  rw [allowedFilter, h.topicBody, Option.bind_some, cstr_of_not_mem h.no_nul]

theorem RequestNode.subackCode_eq (h : RequestNode tn f) :
    tn.subackCode = UInt8.ofNat tn.options.qos := if_pos h.code

/-- A quality of service is not mistaken for an error. -/
theorem RequestNode.subackCode_lt (h : RequestNode tn f) : tn.subackCode < 0x80 := by
  have hqos := h.qos
  rw [h.subackCode_eq, UInt8.lt_iff_toNat_lt, UInt8.toNat_ofNat']
  change _ < 128
  omega

theorem subackCode_rejected (herr : 0x80 ≤ nng.authSubError) (tn : TopicNode) :
    { tn with reasonCode := nng.authSubError }.subackCode = nng.authSubError := by
  apply if_neg
  intro heq
  have hbad : nng.authSubError = ReasonCode.grantedQos2 := heq
  rw [hbad] at herr
  exact absurd herr (by decide)

theorem RequestNode.aclMarked_eq (h : RequestNode tn f) :
    aclMarked nng conf cparam tn =
      if subAclDenies nng conf cparam f then { tn with reasonCode := nng.authSubError }
      else tn := by
  rw [aclMarked, h.allowedFilter_eq, h.topicBody]
  split_ifs <;> simp_all

end Codes

section Answer

variable (nng : Nng) (conf : Conf) (env : PubEnv) (cparam : Option ConnParam) (pid : ℕ)
  (pkt : SubPacket) (st : Store)

def storeAfter (k : ℕ) : Store :=
  (subCtxHandle nng conf env cparam pid { pkt with node := pkt.node.take k } st).2.store

/-- What the code of the entry at index `i` says about it. -/
structure EntryAnswered (i : ℕ) (tn : TopicNode) (code : ReasonCode) : Prop where
  value : code = UInt8.ofNat tn.options.qos ∨ 0x80 ≤ code
  granted : code < 0x80 → ∀ f, tn.topicBody = some f →
    (subCtxHandle nng conf env cparam pid pkt st).2.store.Recorded pid f ∧
      (subCtxHandle nng conf env cparam pid pkt st).2.store.Registered pid f
  refused : 0x80 ≤ code →
    storeAfter nng conf env cparam pid pkt st (i + 1) = storeAfter nng conf env cparam pid pkt st i

variable {nng conf env cparam pid pkt st}

theorem storeAfter_of_rejected (hrej : subHttpRejects conf env = true) (k : ℕ) :
    storeAfter nng conf env cparam pid pkt st k = st := by
  unfold storeAfter subCtxHandle
  split_ifs <;> rfl

theorem storeAfter_of_asked (hid : pkt.packetId ≠ 0) (hrej : ¬ subHttpRejects conf env = true)
    (k : ℕ) :
    storeAfter nng conf env cparam pid pkt st k =
      (subEntries nng conf cparam pid st (pkt.node.take k)).store := by
  unfold storeAfter subCtxHandle
  dsimp only
  by_cases hnil : pkt.node.take k = []
  · rw [if_pos hnil, hnil]
    rfl
  · rw [if_neg hnil, if_neg hid, if_neg hrej]

/-- A node that is not allowed leaves the tables as they were. -/
theorem storeAfter_succ (hid : pkt.packetId ≠ 0) {i : ℕ} {tn : TopicNode}
    (hi : pkt.node[i]? = some tn)
    (hno : subHttpRejects conf env = true ∨ allowedFilter nng conf cparam tn = none) :
    storeAfter nng conf env cparam pid pkt st (i + 1) =
      storeAfter nng conf env cparam pid pkt st i := by
  by_cases hrej : subHttpRejects conf env = true
  · rw [storeAfter_of_rejected hrej, storeAfter_of_rejected hrej]
  · have hdeny := hno.resolve_left hrej
    obtain ⟨hlt, htn⟩ := List.getElem?_eq_some_iff.mp hi
    rw [storeAfter_of_asked hid hrej, storeAfter_of_asked hid hrej,
      List.take_succ_eq_append_getElem hlt, htn, subEntries, List.foldl_append, List.foldl_cons,
      List.foldl_nil, subEntryStep_of_not_allowed hdeny]
    rfl

theorem nodes_subCtxHandle (hne : pkt.node ≠ []) (hid : pkt.packetId ≠ 0) :
    (subCtxHandle nng conf env cparam pid pkt st).2.nodes =
      pkt.node.map (fun tn => if subHttpRejects conf env then
        { tn with reasonCode := nng.authSubError } else aclMarked nng conf cparam tn) := by
  unfold subCtxHandle
  rw [if_neg hne, if_neg hid]
  split_ifs
  · rfl
  · exact nodes_foldl_subEntryStep pkt.node ⟨[], st, []⟩

theorem code_subCtxHandle (hne : pkt.node ≠ []) (hid : pkt.packetId ≠ 0) :
    (subCtxHandle nng conf env cparam pid pkt st).1 = 0 := by
  unfold subCtxHandle
  rw [if_neg hne, if_neg hid]
  split_ifs <;> rfl

/-- An allowed filter is in both tables afterwards. -/
theorem subscribed_of_allowed (hagree : st.Agree) (hne : pkt.node ≠ []) (hid : pkt.packetId ≠ 0)
    (hrej : ¬ subHttpRejects conf env = true) {tn : TopicNode} (htn : tn ∈ pkt.node) {f : Bytes}
    (hf : allowedFilter nng conf cparam tn = some f) :
    (subCtxHandle nng conf env cparam pid pkt st).2.store.Recorded pid f ∧
      (subCtxHandle nng conf env cparam pid pkt st).2.store.Registered pid f := by
  unfold subCtxHandle
  rw [if_neg hne, if_neg hid, if_neg hrej]
  have hrep : Represents (pkt.node.foldl (subEntryStep nng conf cparam pid) ⟨[], st, []⟩).store _ :=
    represents_foldl_subEntryStep pkt.node hagree.represents
  have hmem : (pid, f) ∈ {s : ℕ × Bytes | st.Recorded s.1 s.2} ∪
      allowedSubs nng conf cparam pid pkt.node := Or.inr ⟨rfl, tn, htn, hf⟩
  exact ⟨(hrep.recorded pid f).mpr hmem, (hrep.registered pid f).mpr hmem⟩

theorem entryAnswered (herr : 0x80 ≤ nng.authSubError) (hagree : st.Agree)
    (hid : pkt.packetId ≠ 0) {i : ℕ} {tn : TopicNode} (hi : pkt.node[i]? = some tn) {f : Bytes}
    (hreq : RequestNode tn f) :
    EntryAnswered nng conf env cparam pid pkt st i tn
      (if subHttpRejects conf env then { tn with reasonCode := nng.authSubError }
        else aclMarked nng conf cparam tn).subackCode := by
  have htn : tn ∈ pkt.node := List.mem_of_getElem? hi
  have hne : pkt.node ≠ [] := List.ne_nil_of_mem htn
  by_cases hno : subHttpRejects conf env = true ∨ subAclDenies nng conf cparam f = true
  · have hcode : (if subHttpRejects conf env then { tn with reasonCode := nng.authSubError }
        else aclMarked nng conf cparam tn).subackCode = nng.authSubError := by
      rw [hreq.aclMarked_eq]
      split_ifs with hrej hdeny
      · exact subackCode_rejected herr tn
      · exact subackCode_rejected herr tn
      · exact absurd hno (not_or.mpr ⟨hrej, hdeny⟩)
    rw [hcode]
    refine ⟨Or.inr herr, fun hlt => absurd herr (UInt8.not_le.mpr hlt), fun _ => ?_⟩
    apply storeAfter_succ hid hi
    rw [hreq.allowedFilter_eq]
    exact hno.imp_right (fun hdeny => if_pos hdeny)
  · obtain ⟨hrej, hdeny⟩ := not_or.mp hno
    rw [if_neg hrej, hreq.aclMarked_eq, if_neg hdeny]
    refine ⟨Or.inl hreq.subackCode_eq, fun _ g hg => ?_, fun hge => ?_⟩
    · have hf : allowedFilter nng conf cparam tn = some g := by
        rw [hreq.allowedFilter_eq, if_neg hdeny, ← hreq.topicBody, hg]
      exact subscribed_of_allowed hagree hne hid hrej htn hf
    · exact absurd hreq.subackCode_lt (UInt8.not_lt.mpr hge)

end Answer

/-- The answer to a SUBSCRIBE has one code for each entry, in order, and each code tells what became
of its entry. -/
theorem suback_answers {nng : Nng} (hlaw : nng.LawfulStr) (hset : nng.SetsPayload)
    (hempty : nng.EmptyBlock) (hvar : nng.VarintInverse) (herr : 0x80 ≤ nng.authSubError)
    (conf : Conf) (env : PubEnv) (cparam : Option ConnParam) (pid : ℕ) {m : Msg} {st : Store}
    (hlen : m.body.length ≤ 268435455)
    (hok : (decodeSubMsg nng m (protoverOf m.connParam)).code = ReasonCode.success)
    (hnodes : NodesOk (decodeSubMsg nng m (protoverOf m.connParam)).packet.node)
    (hagree : st.Agree) :
    let ver := protoverOf m.connParam
    let pkt := (decodeSubMsg nng m ver).packet
    let r := subCtxHandle nng conf env cparam pid pkt st
    let ack := encodeSubackMsg nng ver { pkt with node := r.2.nodes } m
    r.1 = 0 ∧ (nng.mqttGetRemainingLength ack.header).1 = ack.body.length ∧
      ∃ codes, ack.body = put16 pkt.packetId ++ (if ver = ProtoVer.v5 then [0] else []) ++ codes ∧
        codes.length = pkt.node.length ∧
        ∀ i tn code, pkt.node[i]? = some tn → codes[i]? = some code →
          EntryAnswered nng conf env cparam pid pkt st i tn code := by
  intro ver pkt r ack
  obtain ⟨hid, hne, hreq, hcount⟩ := requestNodes_of_decoded hlaw (hset m) hok hnodes
  have hnode : r.2.nodes = pkt.node.map (fun tn => if subHttpRejects conf env then
      { tn with reasonCode := nng.authSubError } else aclMarked nng conf cparam tn) :=
    nodes_subCtxHandle hne hid
  have hnil : r.2.nodes ≠ [] := by
    rw [hnode]
    exact fun h => hne (List.map_eq_nil_iff.mp h)
  have hbody : ack.body = put16 pkt.packetId ++ (if ver = ProtoVer.v5 then [0] else []) ++
      r.2.nodes.map TopicNode.subackCode :=
    body_encodeSubackMsg hempty ver { pkt with node := r.2.nodes } m hid hnil
  have hfits : ack.body.length ≤ 268435455 := by
    have hblock : (if ver = ProtoVer.v5 then [0] else [] : Bytes).length ≤ 1 := by
      split_ifs <;> decide
    rw [hbody, hnode, List.length_append, List.length_append, List.length_map, List.length_map,
      length_put16]
    change 3 * pkt.node.length ≤ m.body.length at hcount
    omega
  refine ⟨code_subCtxHandle hne hid, (hvar 0x90 ack.body.length hfits).1, _, hbody, ?_, ?_⟩
  · rw [hnode, List.length_map, List.length_map]
  · intro i tn code htn hcode
    obtain ⟨f, hf⟩ := hreq tn (List.mem_of_getElem? htn)
    rw [hnode, List.map_map, List.getElem?_map, htn] at hcode
    obtain rfl := Option.some.inj hcode
    exact entryAnswered herr hagree hid htn hf

/-- Only `a` may be subscribed to; the second of two filters is refused. -/
theorem suback_answers_denied :
    let conf : Conf := { Conf.bare with
      aclEnable := true, aclNomatch := .deny
      aclRules := [⟨.allow, .sub, .field .username .all, [ascii "a"]⟩] }
    let m := simpleSubscribe [0, 1, 0x61, 1, 0, 1, 0x62, 0]
    let pkt := (decodeSubMsg Nng.reference m ProtoVer.v311).packet
    let r := subCtxHandle Nng.reference conf ⟨false, true, 0⟩ m.connParam 5 pkt Store.empty
    (encodeSubackMsg Nng.reference ProtoVer.v311 { pkt with node := r.2.nodes } m).body =
        [0, 1, 1, 0x87] ∧
      r.1 = 0 := by
  intro conf m pkt r
  have hanswer := suback_answers Reference.lawfulStr Reference.setsPayload Reference.emptyBlock
    Reference.varintInverse (by decide) conf ⟨false, true, 0⟩ m.connParam 5 (m := m) (by decide)
    (by decide) (by decide) Store.agree_empty
  exact ⟨by decide, hanswer.1⟩

end NanoMQ
