import NanoMQ.SubLayout
import NanoMQ.Unsub

/-!
# What a decoded UNSUBSCRIBE says about its body

`UnsubscribeLayout` is the format of the standard: a packet identifier, the property block of MQTT 5
and one or more filters. The decoder succeeds on exactly these bodies. Where it fails, the filter of
some node, or the list of nodes itself, was never assigned.
-/

namespace NanoMQ

open ByteBuffer

def encodeFilters (fs : List Bytes) : Bytes := fs.flatMap (fun f => put16 f.length ++ f)

section Layout

variable (nng : Nng) (m : Msg) (ver : ProtoVer)

structure UnsubscribeLayout (id : ℕ) (block : Bytes) (fs : List Bytes) : Prop where
  body : m.body = put16 id ++ (block ++ encodeFilters fs)
  id_lt : id < 65536
  props : PropsBlock nng m ver block
  nonempty : fs ≠ []
  filter_lt : ∀ f ∈ fs, f.length < 65536
  utf8 : ∀ f ∈ fs, nng.utf8Check f = true

end Layout

section Filters

variable (nng : Nng) (payload : Bytes)

structure FilterAt (pos : ℕ) (f : Bytes) : Prop where
  text : nng.IsText payload pos payload.length
  filter : f = slice payload (pos + 2) (get16 payload pos)

inductive Filters : ℕ → List Bytes → Prop
  | last {pos : ℕ} {f : Bytes} (head : FilterAt nng payload pos f)
      (used : payload.length ≤ pos + 2 + f.length) : Filters pos [f]
  | more {pos : ℕ} {f : Bytes} {fs : List Bytes} (head : FilterAt nng payload pos f)
      (tail : Filters (pos + 2 + f.length) fs) : Filters pos (f :: fs)

/-- The node of a filter; an empty one may leave the text unassigned. -/
structure NodeOf (f : Bytes) (tn : UnsubNode) : Prop where
  topicLen : tn.topicLen = some f.length
  reasonCode : tn.reasonCode = none
  topicBody : f ≠ [] → tn.topicBody = some f

variable {nng payload} {pos fuel : ℕ} {f : Bytes} {fs : List Bytes}

theorem FilterAt.length_filter (h : FilterAt nng payload pos f) :
    f.length = get16 payload pos := by
  rw [h.filter, length_slice _ _ _ h.text.1]

theorem FilterAt.end_le (h : FilterAt nng payload pos f) :
    pos + 2 + f.length ≤ payload.length := by
  rw [h.length_filter]
  exact h.text.1

theorem FilterAt.drop_eq (h : FilterAt nng payload pos f) :
    payload.drop pos = put16 f.length ++ (f ++ payload.drop (pos + 2 + f.length)) := by
  have hlen := h.length_filter
  have hend := h.end_le
  have htwo : slice payload pos 2 = put16 f.length := by
    rw [hlen]
    exact slice_two_eq_put16 payload pos (by omega)
  have hfilter : slice payload (pos + 2) f.length = f := by rw [hlen, ← h.filter]
  rw [← slice_append_drop payload pos 2, ← slice_append_drop payload (pos + 2) f.length, htwo,
    hfilter]

theorem Filters.drop_eq (h : Filters nng payload pos fs) : payload.drop pos = encodeFilters fs := by
  induction h with
  | last head used =>
    rw [head.drop_eq, List.drop_eq_nil_of_le used]
    simp [encodeFilters]
  | more head tail ih =>
    rw [head.drop_eq, ih, encodeFilters, encodeFilters, List.flatMap_cons, List.append_assoc]

theorem Filters.ne_nil (h : Filters nng payload pos fs) : fs ≠ [] := by
  cases h <;> exact List.cons_ne_nil _ _

theorem FilterAt.valid (h : FilterAt nng payload pos f) :
    f.length < 65536 ∧ nng.utf8Check f = true := by
  refine ⟨?_, ?_⟩
  · rw [h.length_filter]
    exact get16_lt payload pos
  · rw [h.filter]
    exact h.text.2

theorem Filters.valid (h : Filters nng payload pos fs) :
    ∀ f ∈ fs, f.length < 65536 ∧ nng.utf8Check f = true := by
  induction h with
  | last head used =>
    intro g hg
    obtain rfl := List.mem_singleton.mp hg
    exact head.valid
  | more head tail ih =>
    intro g hg
    rcases List.mem_cons.mp hg with rfl | hg
    · exact head.valid
    · exact ih g hg

theorem filters_encode (hne : fs ≠ []) (hlt : ∀ f ∈ fs, f.length < 65536)
    (hutf : ∀ f ∈ fs, nng.utf8Check f = true) (pre : Bytes) :
    Filters nng (pre ++ encodeFilters fs) pre.length fs := by
  induction fs generalizing pre with
  | nil => exact absurd rfl hne
  | cons f fs ih =>
    have hcons : pre ++ encodeFilters (f :: fs) =
        pre ++ (put16 f.length ++ (f ++ encodeFilters fs)) := by
      rw [encodeFilters, List.flatMap_cons, List.append_assoc, ← encodeFilters]
    have hpre : (pre ++ put16 f.length).length = pre.length + 2 := by
      rw [List.length_append, length_put16]
    have hget : get16 (pre ++ encodeFilters (f :: fs)) pre.length = f.length := by
      rw [hcons, get16_append_put16 _ _ _ (hlt f List.mem_cons_self)]
    have hslice : slice (pre ++ encodeFilters (f :: fs)) (pre.length + 2) f.length = f := by
      rw [hcons, ← List.append_assoc, ← hpre]
      exact slice_append_right _ _ _
    have hsize : (pre ++ encodeFilters (f :: fs)).length =
        pre.length + 2 + f.length + (encodeFilters fs).length := by
      rw [hcons]
      simp only [List.length_append, length_put16]
      omega
    have hhead : FilterAt nng (pre ++ encodeFilters (f :: fs)) pre.length f := by
      refine ⟨⟨?_, ?_⟩, ?_⟩
      · rw [hget]
        omega
      · rw [hget, hslice]
        exact hutf f List.mem_cons_self
      · rw [hget, hslice]
    by_cases hnil : fs = []
    · subst hnil
      refine .last hhead ?_
      rw [hsize, encodeFilters, List.flatMap_nil, List.length_nil, Nat.add_zero]
    · refine .more hhead ?_
      have htail := ih hnil (fun g hg => hlt g (List.mem_cons_of_mem f hg))
        (fun g hg => hutf g (List.mem_cons_of_mem f hg)) (pre ++ put16 f.length ++ f)
      rw [List.length_append, hpre, List.append_assoc, List.append_assoc, ← hcons] at htail
      exact htail

end Filters

section Loop

variable {nng : Nng} {payload : Bytes} {pos fuel : ℕ} {f : Bytes} {fs : List Bytes}
  (hlaw : nng.LawfulText)

include hlaw

theorem FilterAt.decodeUnsubEntry_eq (h : FilterAt nng payload pos f) :
    ∃ tn, NodeOf f tn ∧ decodeUnsubEntry nng payload payload.length pos =
      (ReasonCode.success, tn, pos + 2 + f.length) := by
  have hlen := hlaw.len_valid _ _ _ h.text
  have hpos := hlaw.pos_valid _ _ _ h.text
  have hok : ¬ (nng.getUtf8Str payload pos payload.length).len = -1 := by
    rw [hlen]
    omega
  refine ⟨{ UnsubNode.alloc with
    topicBody := (nng.getUtf8Str payload pos payload.length).dest
    topicLen := some (nng.getUtf8Str payload pos payload.length).len.toNat }, ⟨?_, rfl, ?_⟩, ?_⟩
  · dsimp only
    rw [hlen, h.length_filter]
    rfl
  · intro hne
    have hz : get16 payload pos ≠ 0 := by
      rw [← h.length_filter]
      exact fun hz => hne (List.length_eq_zero_iff.mp hz)
    dsimp only
    rw [hlaw.dest_valid _ _ _ h.text hz, ← h.filter]
  · rw [decodeUnsubEntry]
    dsimp only
    rw [if_neg hok, hpos, ← h.length_filter]

/-- A pass over anything else ends the decoding, with the length of the filter unassigned. -/
theorem decodeUnsubEntry_invalid (h : ¬ nng.IsText payload pos payload.length) :
    ∃ tn next, tn.topicLen = none ∧ decodeUnsubEntry nng payload payload.length pos =
      (ReasonCode.protocolError, tn, next) :=
  ⟨{ UnsubNode.alloc with
    topicBody := (nng.getUtf8Str payload pos payload.length).dest
    reasonCode := some ReasonCode.unspecifiedError }, _, rfl, if_pos (hlaw.invalid _ _ _ h)⟩

theorem Filters.decodeUnsubLoop_eq (h : Filters nng payload pos fs)
    (hfuel : payload.length ≤ pos + fuel) :
    ∃ nodes, List.Forall₂ NodeOf fs nodes ∧
      decodeUnsubLoop nng payload payload.length fuel pos = ⟨ReasonCode.success, nodes⟩ := by
  induction h generalizing fuel with
  | @last pos f head used =>
    obtain ⟨tn, htn, heq⟩ := head.decodeUnsubEntry_eq hlaw
    refine ⟨[tn], .cons htn .nil, ?_⟩
    cases fuel with
    | zero => rw [decodeUnsubLoop, heq]
    | succ fuel =>
      rw [decodeUnsubLoop, heq]
      dsimp only
      rw [if_neg (not_not.mpr rfl), if_neg (not_lt.mpr used)]
  | @more pos f fs head tail ih =>
    obtain ⟨tn, htn, heq⟩ := head.decodeUnsubEntry_eq hlaw
    have hnext : pos + 2 + f.length < payload.length := by
      cases tail with
      | last head' _ => have := head'.end_le; omega
      | more head' _ => have := head'.end_le; omega
    cases fuel with
    | zero => omega
    | succ fuel =>
      obtain ⟨nodes, hnodes, hloop⟩ :=
        ih (show payload.length ≤ pos + 2 + f.length + fuel by omega)
      refine ⟨tn :: nodes, .cons htn hnodes, ?_⟩
      rw [decodeUnsubLoop, heq]
      dsimp only
      rw [if_neg (not_not.mpr rfl), if_pos hnext, hloop]

/-- Otherwise the loop fails and leaves a node whose filter was never assigned. -/
theorem decodeUnsubLoop_cases (hfuel : payload.length ≤ pos + fuel) :
    (∃ fs, Filters nng payload pos fs) ∨
      (decodeUnsubLoop nng payload payload.length fuel pos).code ≠ ReasonCode.success ∧
        ∃ tn ∈ (decodeUnsubLoop nng payload payload.length fuel pos).nodes, tn.topicLen = none := by
  induction fuel generalizing pos with
  | zero =>
    by_cases htext : nng.IsText payload pos payload.length
    · have := htext.1
      omega
    · obtain ⟨tn, next, hnone, heq⟩ := decodeUnsubEntry_invalid hlaw htext
      rw [decodeUnsubLoop, heq]
      exact Or.inr ⟨by rintro ⟨⟩, tn, List.mem_cons_self, hnone⟩
  | succ fuel ih =>
    by_cases htext : nng.IsText payload pos payload.length
    · have hhead : FilterAt nng payload pos _ := ⟨htext, rfl⟩
      obtain ⟨tn, -, heq⟩ := hhead.decodeUnsubEntry_eq hlaw
      by_cases hnext : pos + 2 + (slice payload (pos + 2) (get16 payload pos)).length <
        payload.length
      · have hfuel' : payload.length ≤
            pos + 2 + (slice payload (pos + 2) (get16 payload pos)).length + fuel := by omega
        rcases ih hfuel' with ⟨fs, hfs⟩ | ⟨hcode, x, hx, hnone⟩
        · exact Or.inl ⟨_, .more hhead hfs⟩
        · rw [decodeUnsubLoop, heq]
          dsimp only
          rw [if_neg (not_not.mpr rfl), if_pos hnext]
          exact Or.inr ⟨hcode, x, List.mem_cons_of_mem tn hx, hnone⟩
      · exact Or.inl ⟨_, .last hhead (not_lt.mp hnext)⟩
    · obtain ⟨tn, next, hnone, heq⟩ := decodeUnsubEntry_invalid hlaw htext
      rw [decodeUnsubLoop, heq]
      dsimp only
      rw [if_pos (by rintro ⟨⟩)]
      exact Or.inr ⟨by rintro ⟨⟩, tn, List.mem_cons_self, hnone⟩

end Loop

theorem encodeFilters_inj {fs gs : List Bytes} (hfs : ∀ f ∈ fs, f.length < 65536)
    (hgs : ∀ g ∈ gs, g.length < 65536) (h : encodeFilters fs = encodeFilters gs) : fs = gs := by
  induction fs generalizing gs with
  | nil =>
    cases gs with
    | nil => rfl
    | cons g gs => cases h
  | cons f fs ih =>
    cases gs with
    | nil => cases h
    | cons g gs =>
      simp only [encodeFilters, List.flatMap_cons, List.append_assoc] at h
      obtain ⟨hlen, hrest⟩ := List.append_inj h rfl
      have heq := put16_inj (hfs f List.mem_cons_self) (hgs g List.mem_cons_self) hlen
      obtain ⟨rfl, htail⟩ := List.append_inj hrest heq
      rw [ih (fun x hx => hfs x (List.mem_cons_of_mem f hx))
        (fun x hx => hgs x (List.mem_cons_of_mem f hx)) htail]

section Message

variable {nng : Nng} {m : Msg} {ver : ProtoVer} {id : ℕ} {block : Bytes} {fs : List Bytes}

theorem UnsubscribeLayout.get16_eq (h : UnsubscribeLayout nng m ver id block fs) :
    get16 m.body 0 = id := by
  rw [h.body, get16_put16_append _ _ h.id_lt]

/-- A body has the layout in one way only. -/
theorem UnsubscribeLayout.unique (h : UnsubscribeLayout nng m ver id block fs) {id' : ℕ}
    {block' : Bytes} {fs' : List Bytes} (h' : UnsubscribeLayout nng m ver id' block' fs') :
    id' = id ∧ fs' = fs := by
  refine ⟨h'.get16_eq.symm.trans h.get16_eq, ?_⟩
  apply encodeFilters_inj h'.filter_lt h.filter_lt
  rw [← h'.props.subPayload_eq h'.body, h.props.subPayload_eq h.body]

theorem UnsubscribeLayout.decodeUnsubMsg_eq (hlaw : nng.LawfulText)
    (h : UnsubscribeLayout nng m ver id block fs) :
    ∃ nodes, List.Forall₂ NodeOf fs nodes ∧
      decodeUnsubMsg nng ver m = ⟨ReasonCode.success, ⟨some id, some nodes⟩⟩ := by
  have hfilters : Filters nng (subPayload nng m ver) 0 fs := by
    have hfs := filters_encode h.nonempty h.filter_lt h.utf8 []
    rwa [List.nil_append, ← h.props.subPayload_eq h.body] at hfs
  have hsize : m.body.length = 2 + (block.length + (encodeFilters fs).length) := by
    rw [h.body, List.length_append, List.length_append, length_put16]
  obtain ⟨nodes, hnodes, hloop⟩ := hfilters.decodeUnsubLoop_eq hlaw (Nat.le_add_left _ 0)
  refine ⟨nodes, hnodes, ?_⟩
  rw [length_subPayload] at hloop
  have hcheck : ¬ (ver = ProtoVer.v5 ∧
      nng.checkProperties (nng.decodeProperties m 2).list m ≠ ReasonCode.success) :=
    fun hbad => hbad.2 (h.props.checked hbad.1)
  have hstart : ¬ subPayloadStart nng m ver > m.body.length := by
    rw [h.props.subPayloadStart_eq]
    omega
  unfold decodeUnsubMsg
  dsimp only
  rw [if_neg (by omega), if_neg hcheck, if_neg hstart, ← subPayload, hloop, h.get16_eq]

def FiltersAssigned (pkt : UnsubPacket) : Prop :=
  ∀ q ∈ bridgeFilters pkt, q.1 ≠ none ∧ q.2 ≠ none

theorem decodeUnsubMsg_cases (hlaw : nng.LawfulText) (hadv : nng.PropsAdvance) (m : Msg)
    (ver : ProtoVer) :
    (∃ id block fs, UnsubscribeLayout nng m ver id block fs) ∨
      (decodeUnsubMsg nng ver m).code ≠ ReasonCode.success ∧
        ¬ FiltersAssigned (decodeUnsubMsg nng ver m).packet := by
  have hunassigned : ∀ id, ¬ FiltersAssigned ⟨id, none⟩ :=
    fun id hall => (hall (none, none) List.mem_cons_self).1 rfl
  unfold decodeUnsubMsg
  dsimp only
  by_cases hshort : m.body.length < 2
  · rw [if_pos hshort]
    exact Or.inr ⟨by rintro ⟨⟩, hunassigned _⟩
  rw [if_neg hshort]
  by_cases hcheck : ver = ProtoVer.v5 ∧
      nng.checkProperties (nng.decodeProperties m 2).list m ≠ ReasonCode.success
  · rw [if_pos hcheck]
    exact Or.inr ⟨by rintro ⟨⟩, hunassigned _⟩
  rw [if_neg hcheck]
  by_cases hstart : subPayloadStart nng m ver > m.body.length
  · rw [if_pos hstart]
    exact Or.inr ⟨by rintro ⟨⟩, hunassigned _⟩
  rw [if_neg hstart, ← subPayload, ← length_subPayload]
  have hloop : (∃ fs, Filters nng (subPayload nng m ver) 0 fs) ∨ _ :=
    decodeUnsubLoop_cases hlaw (Nat.le_add_left _ 0)
  rcases hloop with ⟨fs, hfs⟩ | ⟨hcode, tn, htn, hnone⟩
  · obtain ⟨block, hblock, hbody⟩ := propsBlock_of_checked hadv (not_lt.mp hstart) (fun hv => by
      by_contra hbad
      exact hcheck ⟨hv, hbad⟩)
    have hpayload := hfs.drop_eq
    rw [List.drop_zero] at hpayload
    rw [hpayload] at hbody
    exact Or.inl ⟨get16 m.body 0, block, fs, hbody, get16_lt m.body 0, hblock, hfs.ne_nil,
      fun f hf => (hfs.valid f hf).1, fun f hf => (hfs.valid f hf).2⟩
  · refine Or.inr ⟨hcode, fun hall => ?_⟩
    exact (hall (tn.topicBody, tn.topicLen) (List.mem_map_of_mem htn)).2 hnone

end Message

end NanoMQ
