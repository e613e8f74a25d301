import NanoMQ.Reference
import NanoMQ.SubEntries

/-!
# What a decoded SUBSCRIBE says about its body

`SubscribeLayout` is the format of the standard: a packet identifier, the property block of MQTT 5
and one or more entries. `Framed` is what `decode_sub_msg` looks at. The two part where the decoder
does not check: a payload may have no entry at all, and an entry may ask for the reserved quality of
service. Besides, the packet identifier is read before the length of the body is known.
-/

namespace NanoMQ

open ByteBuffer

/-- The protocol layer has set `payload_ptr` behind the variable header. -/
def Nng.SetsPayload (n : Nng) : Prop :=
  ∀ m, n.payloadPtr m = some (subPayloadStart n m (protoverOf m.connParam))

theorem Reference.setsPayload : Nng.reference.SetsPayload := fun _ => rfl

section Layout

variable (nng : Nng) (m : Msg) (ver : ProtoVer)

structure ValidEntry (e : SubEntry) : Prop where
  nonempty : e.filter ≠ []
  filter_lt : e.filter.length < 65536
  utf8 : nng.utf8Check e.filter = true
  qos : (e.opts.qos : ℕ) ≤ 2
  retain : (e.opts.retainHandling : ℕ) ≤ 2
  share : ver = ProtoVer.v5 → sharePrefix <+: e.filter → e.opts.noLocal = false

/-- The property block behind a packet identifier: none before MQTT 5, and else one that passes its
check. -/
structure PropsBlock (block : Bytes) : Prop where
  nil : ver ≠ ProtoVer.v5 → block = []
  ends : ver = ProtoVer.v5 → (nng.decodeProperties m 2).pos = 2 + block.length
  checked : ver = ProtoVer.v5 →
    nng.checkProperties (nng.decodeProperties m 2).list m = ReasonCode.success

structure SubscribeLayout (pkt : SubPacket) (block : Bytes) (es : List SubEntry) : Prop where
  body : m.body = put16 pkt.packetId ++ (block ++ encodeEntries es)
  packetId_ne : pkt.packetId ≠ 0
  packetId_lt : pkt.packetId < 65536
  props : PropsBlock nng m ver block
  properties : ver = ProtoVer.v5 → pkt.properties = (nng.decodeProperties m 2).list
  nonempty : es ≠ []
  entry : ∀ e ∈ es, ValidEntry nng ver e
  nodes : pkt.node = es.map SubEntry.node

/-- The decoding is sound: a packet that is accepted has the layout, and in any case nothing behind
the body is read. -/
structure SoundSubDecoding (d : SubDecoded) : Prop where
  layout : d.code = ReasonCode.success →
    ∃ block es, SubscribeLayout nng m ver d.packet block es
  inBody : ∀ span ∈ d.reads, span.1 + span.2 ≤ m.body.length

def subPayload : Bytes := m.body.drop (subPayloadStart nng m ver)

structure Framed (es : List SubEntry) : Prop where
  packetId : get16 m.body 0 ≠ 0
  checked : ver = ProtoVer.v5 →
    nng.checkProperties (nng.decodeProperties m 2).list m = ReasonCode.success
  start : subPayloadStart nng m ver ≤ m.body.length
  entries : Entries nng ver (subPayload nng m ver) 0 es

end Layout

section Entries

variable {nng : Nng} {ver : ProtoVer} {payload : Bytes} {pos : ℕ} {e : SubEntry}
  {es : List SubEntry}

theorem EntryAt.drop_eq (h : EntryAt nng ver payload pos e) :
    payload.drop pos = e.encode ++ payload.drop (pos + e.encode.length) := by
  have hin := h.inside
  have hlen := h.length_filter
  have hend : pos + 2 + e.filter.length < payload.length := hin
  have htwo : slice payload pos 2 = put16 e.filter.length := by
    rw [hlen]
    exact slice_two_eq_put16 payload pos (by omega)
  have hfilter : slice payload (pos + 2) e.filter.length = e.filter := by rw [hlen, ← h.filter]
  have hlast : payload.drop (pos + 2 + e.filter.length) =
      e.options :: payload.drop (pos + 2 + e.filter.length + 1) := by
    rw [List.drop_eq_getElem_cons hend, h.options, byteAt, List.getD_eq_getElem?_getD,
      List.getElem?_eq_getElem hend]
    rfl
  have hnext : pos + 2 + e.filter.length + 1 = pos + e.encode.length := by
    rw [e.length_encode]
    omega
  rw [← slice_append_drop payload pos 2, ← slice_append_drop payload (pos + 2) e.filter.length,
    htwo, hfilter, hlast, hnext]
  simp only [SubEntry.encode, List.append_assoc, List.singleton_append]

theorem Entries.drop_eq (h : Entries nng ver payload pos es) :
    payload.drop pos = encodeEntries es := by
  induction h with
  | stop used => exact List.drop_eq_nil_of_le used
  | entry head tail ih => rw [head.drop_eq, ih, encodeEntries, encodeEntries, List.flatMap_cons]

theorem EntryAt.valid (hlaw : nng.LawfulStr) (h : EntryAt nng ver payload pos e)
    (hqos : (e.opts.qos : ℕ) ≤ 2) : ValidEntry nng ver e := by
  have hutf : nng.utf8Check e.filter = true := by
    rw [h.filter]
    exact h.str.2
  refine ⟨h.nonempty, ?_, hutf, hqos, h.retain, ?_⟩
  · rw [h.length_filter]
    exact get16_lt payload pos
  · intro hv hshare
    by_contra hlocal
    have hnul : cstr e.filter = e.filter := cstr_of_not_mem (hlaw.utf8_no_nul _ hutf)
    have herr := h.share
    rw [shareError, hnul, if_pos (List.isPrefixOf_iff_prefix.mpr hshare),
      if_pos ⟨hv, Bool.eq_true_of_not_eq_false hlocal⟩] at herr
    cases herr

theorem Entries.valid (hlaw : nng.LawfulStr) (h : Entries nng ver payload pos es)
    (hqos : ∀ e ∈ es, (e.opts.qos : ℕ) ≤ 2) : ∀ e ∈ es, ValidEntry nng ver e := by
  induction h with
  | stop used => exact fun e he => absurd he List.not_mem_nil
  | @entry pos e es head tail ih =>
    intro x hx
    rcases List.mem_cons.mp hx with rfl | hx
    · exact head.valid hlaw (hqos x List.mem_cons_self)
    · exact ih (fun y hy => hqos y (List.mem_cons_of_mem e hy)) x hx

end Entries

section Framed

variable {nng : Nng} {m : Msg} {ver : ProtoVer} {es : List SubEntry}

theorem packetId_subHeader : (subHeader nng m ver).packetId = get16 m.body 0 := by
  unfold subHeader
  split_ifs <;> rfl

theorem properties_subHeader (hv : ver = ProtoVer.v5) :
    (subHeader nng m ver).properties = (nng.decodeProperties m 2).list := by
  rw [subHeader, if_pos hv]

theorem length_subPayload :
    (subPayload nng m ver).length = m.body.length - subPayloadStart nng m ver := List.length_drop

theorem two_le_subPayloadStart (hadv : nng.PropsAdvance) (m : Msg) (ver : ProtoVer) :
    2 ≤ subPayloadStart nng m ver := by
  unfold subPayloadStart
  split_ifs
  · exact hadv m 2
  · exact le_rfl

theorem PropsBlock.subPayloadStart_eq {block : Bytes} (h : PropsBlock nng m ver block) :
    subPayloadStart nng m ver = 2 + block.length := by
  unfold subPayloadStart
  split_ifs with hv
  · exact h.ends hv
  · rw [h.nil hv]
    rfl

theorem PropsBlock.subPayload_eq {block payload : Bytes} {id : ℕ} (h : PropsBlock nng m ver block)
    (hbody : m.body = put16 id ++ (block ++ payload)) : subPayload nng m ver = payload := by
  rw [subPayload, h.subPayloadStart_eq, hbody, ← List.append_assoc]
  apply List.drop_left'
  rw [List.length_append, length_put16]

theorem propsBlock_of_checked (hadv : nng.PropsAdvance)
    (hstart : subPayloadStart nng m ver ≤ m.body.length) (hcheck : ver = ProtoVer.v5 →
      nng.checkProperties (nng.decodeProperties m 2).list m = ReasonCode.success) :
    ∃ block, PropsBlock nng m ver block ∧
      m.body = put16 (get16 m.body 0) ++ (block ++ subPayload nng m ver) := by
  have hle := two_le_subPayloadStart hadv m ver
  have hlen : (slice m.body 2 (subPayloadStart nng m ver - 2)).length =
      subPayloadStart nng m ver - 2 := length_slice _ _ _ (by omega)
  refine ⟨slice m.body 2 (subPayloadStart nng m ver - 2), ⟨?_, ?_, hcheck⟩, ?_⟩
  · intro hv
    rw [subPayloadStart, if_neg hv]
    exact List.take_zero
  · intro hv
    rw [hlen, Nat.add_sub_cancel' hle, subPayloadStart, if_pos hv]
  · have hrest := slice_append_drop m.body 2 (subPayloadStart nng m ver - 2)
    rw [Nat.add_sub_cancel' hle, ← subPayload] at hrest
    rw [hrest, ← slice_two_eq_put16 m.body 0 (by omega)]
    exact (slice_append_drop m.body 0 2).symm

theorem decodeSubMsg_of_header (hptr : nng.payloadPtr m = some (subPayloadStart nng m ver))
    (hid : get16 m.body 0 ≠ 0) (hcheck : ver = ProtoVer.v5 →
      nng.checkProperties (nng.decodeProperties m 2).list m = ReasonCode.success) :
    decodeSubMsg nng m ver =
      decodeSubPayload nng m ver (subPayloadStart nng m ver) (subPayloadStart nng m ver)
        (subHeader nng m ver) := by
  have hprops : ¬ (ver = ProtoVer.v5 ∧
      nng.checkProperties (subHeader nng m ver).properties m ≠ ReasonCode.success) := by
    rintro ⟨hv, hbad⟩
    rw [properties_subHeader hv] at hbad
    exact hbad (hcheck hv)
  unfold decodeSubMsg
  dsimp only
  rw [if_neg hid, if_neg hprops, hptr]

theorem header_of_success (hok : (decodeSubMsg nng m ver).code = ReasonCode.success) :
    get16 m.body 0 ≠ 0 ∧ (ver = ProtoVer.v5 →
      nng.checkProperties (nng.decodeProperties m 2).list m = ReasonCode.success) := by
  unfold decodeSubMsg at hok
  dsimp only at hok
  split_ifs at hok with hid hprops
  · cases hok
  · cases hok
  · refine ⟨hid, fun hv => ?_⟩
    by_contra hbad
    rw [← properties_subHeader hv] at hbad
    exact hprops ⟨hv, hbad⟩

theorem Framed.decodeSubMsg_eq (hlaw : nng.LawfulStr)
    (hptr : nng.payloadPtr m = some (subPayloadStart nng m ver)) (h : Framed nng m ver es) :
    ∃ reads, decodeSubMsg nng m ver =
      ⟨ReasonCode.success, { subHeader nng m ver with node := nodesOf es }, reads⟩ := by
  have hloop := h.entries.decodeSubLoop_eq hlaw (Nat.le_add_left _ 0)
  rw [length_subPayload] at hloop
  rw [decodeSubMsg_of_header hptr h.packetId h.checked, decodeSubPayload,
    if_neg (not_lt.mpr h.start)]
  dsimp only
  rw [← subPayload, hloop]
  exact ⟨_, rfl⟩

/-- The decoder succeeds exactly on framed bodies. -/
theorem decodeSubMsg_success_iff (hlaw : nng.LawfulStr)
    (hptr : nng.payloadPtr m = some (subPayloadStart nng m ver)) :
    (decodeSubMsg nng m ver).code = ReasonCode.success ↔ ∃ es, Framed nng m ver es := by
  constructor
  · intro hok
    obtain ⟨hid, hcheck⟩ := header_of_success hok
    rw [decodeSubMsg_of_header hptr hid hcheck, decodeSubPayload] at hok
    split_ifs at hok with hstart
    · cases hok
    · rw [← subPayload, ← length_subPayload] at hok
      obtain ⟨es, hes⟩ := entries_of_success hlaw (Nat.le_add_left _ 0) hok
      exact ⟨es, hid, hcheck, not_lt.mp hstart, hes⟩
  · rintro ⟨es, hes⟩
    obtain ⟨reads, heq⟩ := hes.decodeSubMsg_eq hlaw hptr
    rw [heq]

/-- Behind the packet identifier the decoder stays within the body. -/
theorem reads_decodeSubMsg (hlaw : nng.LawfulStr) (hadv : nng.PropsAdvance)
    (hptr : nng.payloadPtr m = some (subPayloadStart nng m ver)) (htwo : 2 ≤ m.body.length) :
    ∀ span ∈ (decodeSubMsg nng m ver).reads, span.1 + span.2 ≤ m.body.length := by
  have hid : ∀ span ∈ [((0 : ℕ), 2)], span.1 + span.2 ≤ m.body.length := by
    intro span hspan
    obtain rfl := List.mem_singleton.mp hspan
    exact htwo
  have hle := two_le_subPayloadStart hadv m ver
  unfold decodeSubMsg
  dsimp only
  rw [hptr]
  dsimp only
  split_ifs
  · exact hid
  · exact hid
  · unfold decodeSubPayload
    split_ifs with hstart
    · exact hid
    · intro span hspan
      rcases List.mem_append.mp hspan with h | h
      · rcases List.mem_cons.mp h with rfl | h
        · exact htwo
        · obtain rfl := List.mem_singleton.mp h
          dsimp only
          omega
      · obtain ⟨s, hs, rfl⟩ := List.mem_map.mp h
        rw [← subPayload, ← length_subPayload] at hs
        have hin := reads_decodeSubLoop hlaw s hs
        rw [length_subPayload] at hin
        dsimp only
        omega

theorem packetId_read (nng : Nng) (m : Msg) (ver : ProtoVer) :
    (0, 2) ∈ (decodeSubMsg nng m ver).reads := by
  unfold decodeSubMsg
  dsimp only
  split_ifs
  · exact List.mem_cons_self
  · exact List.mem_cons_self
  · cases nng.payloadPtr m with
    | none => exact List.mem_cons_self
    | some start =>
      unfold decodeSubPayload
      dsimp only
      split_ifs <;> exact List.mem_cons_self

theorem Framed.layout (hlaw : nng.LawfulStr) (hadv : nng.PropsAdvance) (h : Framed nng m ver es)
    (hne : es ≠ []) (hqos : ∀ e ∈ es, (e.opts.qos : ℕ) ≤ 2) :
    ∃ block,
      SubscribeLayout nng m ver { subHeader nng m ver with node := nodesOf es } block es := by
  obtain ⟨block, hblock, hbody⟩ := propsBlock_of_checked hadv h.start h.checked
  have hpayload := h.entries.drop_eq
  rw [List.drop_zero] at hpayload
  refine ⟨block, ?_, ?_, ?_, hblock, fun hv => properties_subHeader hv, hne,
    h.entries.valid hlaw hqos, ?_⟩
  · dsimp only
    rw [packetId_subHeader, ← hpayload]
    exact hbody
  · rw [packetId_subHeader]
    exact h.packetId
  · rw [packetId_subHeader]
    exact get16_lt m.body 0
  · cases es with
    | nil => exact absurd rfl hne
    | cons e es => rfl

def NodesOk (nodes : List TopicNode) : Prop :=
  ∀ n ∈ nodes, n.topicBody ≠ none ∧ (n.options.qos : ℕ) ≤ 2

instance (nodes : List TopicNode) : Decidable (NodesOk nodes) :=
  inferInstanceAs (Decidable (∀ n ∈ nodes, _))

theorem nodesOk_nodesOf_iff :
    NodesOk (nodesOf es) ↔ es ≠ [] ∧ ∀ e ∈ es, (e.opts.qos : ℕ) ≤ 2 := by
  cases es with
  | nil =>
    apply iff_of_false
    · intro h
      exact (h TopicNode.fresh List.mem_cons_self).1 rfl
    · exact fun h => h.1 rfl
  | cons e es =>
    constructor
    · intro h
      exact ⟨List.cons_ne_nil e es, fun x hx => (h x.node (List.mem_map_of_mem hx)).2⟩
    · rintro ⟨-, hqos⟩ n hn
      obtain ⟨x, hx, rfl⟩ := List.mem_map.mp hn
      exact ⟨Option.some_ne_none x.filter, hqos x hx⟩

theorem SubscribeLayout.nodesOk {pkt : SubPacket} {block : Bytes}
    (h : SubscribeLayout nng m ver pkt block es) : NodesOk pkt.node := by
  intro n hn
  rw [h.nodes] at hn
  obtain ⟨e, he, rfl⟩ := List.mem_map.mp hn
  exact ⟨Option.some_ne_none e.filter, (h.entry e he).qos⟩

theorem SoundSubDecoding.nodesOk {d : SubDecoded} (h : SoundSubDecoding nng m ver d)
    (hok : d.code = ReasonCode.success) : NodesOk d.packet.node := by
  obtain ⟨block, es, hlay⟩ := h.layout hok
  exact hlay.nodesOk

end Framed

/-- The decoding of a SUBSCRIBE is sound exactly when its body holds a packet identifier and, should
it pass the checks, has an entry and none of the reserved quality of service. -/
theorem decodeSubMsg_sound_iff {nng : Nng} (hlaw : nng.LawfulStr) (hadv : nng.PropsAdvance)
    (hset : nng.SetsPayload) (m : Msg) :
    let ver := protoverOf m.connParam
    SoundSubDecoding nng m ver (decodeSubMsg nng m ver) ↔
      2 ≤ m.body.length ∧
        ∀ es, Framed nng m ver es → es ≠ [] ∧ ∀ e ∈ es, (e.opts.qos : ℕ) ≤ 2 := by
  intro ver
  have hptr : nng.payloadPtr m = some (subPayloadStart nng m ver) := hset m
  constructor
  · intro h
    refine ⟨h.inBody (0, 2) (packetId_read nng m ver), fun es hes => ?_⟩
    obtain ⟨reads, heq⟩ := hes.decodeSubMsg_eq hlaw hptr
    rw [heq] at h
    obtain ⟨block, fs, hlay⟩ := h.layout rfl
    exact nodesOk_nodesOf_iff.mp hlay.nodesOk
  · rintro ⟨htwo, hentries⟩
    refine ⟨fun hok => ?_, reads_decodeSubMsg hlaw hadv hptr htwo⟩
    obtain ⟨es, hes⟩ := (decodeSubMsg_success_iff hlaw hptr).mp hok
    obtain ⟨reads, heq⟩ := hes.decodeSubMsg_eq hlaw hptr
    obtain ⟨hne, hqos⟩ := hentries es hes
    obtain ⟨block, hlay⟩ := hes.layout hlaw hadv hne hqos
    rw [heq]
    exact ⟨block, es, hlay⟩

def simpleSubscribe (payload : Bytes) : Msg :=
  { Msg.alloc with
    header := [0x82, UInt8.ofNat (payload.length + 2)], body := put16 1 ++ payload
    cmdType := .subscribe, connParam := some ConnParam.bare }

/-- A subscription to `a` with quality of service 1. -/
theorem decodeSubMsg_sound_simple :
    let m := simpleSubscribe [0, 1, 0x61, 1]
    SoundSubDecoding Nng.reference m ProtoVer.v311
      (decodeSubMsg Nng.reference m ProtoVer.v311) := by
  intro m
  refine (decodeSubMsg_sound_iff Reference.lawfulStr Reference.propsAdvance
    Reference.setsPayload m).mpr ⟨by decide, fun es hes => ?_⟩
  obtain ⟨reads, heq⟩ := hes.decodeSubMsg_eq Reference.lawfulStr rfl
  have hnode : (decodeSubMsg Nng.reference m ProtoVer.v311).packet.node = nodesOf es :=
    congrArg (fun d => d.packet.node) heq
  apply nodesOk_nodesOf_iff.mp
  rw [← hnode]
  decide

/-- A SUBSCRIBE without any entry is accepted, and so is one that asks for quality of service 3. -/
theorem decodeSubMsg_accepts_no_entry :
    let d := fun payload => decodeSubMsg Nng.reference (simpleSubscribe payload) ProtoVer.v311
    ((d []).code = ReasonCode.success ∧
      ¬ SoundSubDecoding Nng.reference (simpleSubscribe []) ProtoVer.v311 (d [])) ∧
    ((d [0, 1, 0x61, 3]).code = ReasonCode.success ∧
      ¬ SoundSubDecoding Nng.reference (simpleSubscribe [0, 1, 0x61, 3]) ProtoVer.v311
        (d [0, 1, 0x61, 3])) := by
  intro d
  refine ⟨⟨by decide, fun h => ?_⟩, ⟨by decide, fun h => ?_⟩⟩
  · exact absurd (h.nodesOk (by decide)) (by decide)
  · exact absurd (h.nodesOk (by decide)) (by decide)

end NanoMQ
