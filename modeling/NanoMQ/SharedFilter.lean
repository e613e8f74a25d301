import NanoMQ.SubRoundTrip

/-!
# Shared subscriptions that are accepted

`decode_sub_msg` looks for the slash behind the name of a shared subscription and for wildcards in
front of that slash. A filter that starts with `$share/` passes exactly when it is
`$share/<name>/<filter>`: a name without slashes and wildcards, and some filter behind it. Entries
behind the one looked at are not reached when it is refused and play no part in it otherwise.
-/

namespace NanoMQ

open ByteBuffer

section Share

variable {ver : ProtoVer} {noLocal : Bool} {f : Bytes}

theorem shareError_of_local (hlocal : ver = ProtoVer.v5 → noLocal = false) (f : Bytes) (len : ℤ) :
    shareError ver noLocal f len = shareError ver false f len := by
  by_cases hv : ver = ProtoVer.v5
  · rw [hlocal hv]
  · simp only [shareError, hv, false_and]

theorem not_mem_of_idxOf? {a b : Bytes} {c : UInt8}
    (h : ¬ ((a ++ b).idxOf? c).any (· < a.length) = true) : c ∉ a := by
  intro hmem
  obtain ⟨x, y, rfl, hx⟩ := List.eq_append_cons_of_mem hmem
  apply h
  rw [List.append_assoc, List.cons_append, idxOf?_append_self hx, Option.any_some,
    decide_eq_true_eq, List.length_append, List.length_cons]
  omega

theorem sharedForm_of_accepted (hnul : (0 : UInt8) ∉ f) (hpre : sharePrefix <+: f)
    (h : shareError ver false f f.length = none) : SubRequest.SharedForm f := by
  obtain ⟨rest, rfl⟩ := hpre
  have hdrop : (cstr (sharePrefix ++ rest)).drop 7 = rest := by
    rw [cstr_of_not_mem hnul]
    exact List.drop_left' rfl
  have hstart : sharePrefix.isPrefixOf (cstr (sharePrefix ++ rest)) = true := by
    rw [cstr_of_not_mem hnul]
    exact List.isPrefixOf_iff_prefix.mpr (List.prefix_append _ _)
  unfold shareError at h
  rw [if_pos hstart, if_neg (by simp)] at h
  split_ifs at h
  dsimp only at h
  rw [hdrop] at h
  by_cases hmem : (0x2f : UInt8) ∈ rest
  · obtain ⟨name, filter, rfl, hslash⟩ := List.eq_append_cons_of_mem hmem
    rw [idxOf?_append_self hslash] at h
    dsimp only at h
    split_ifs at h with hends hwild
    rw [not_or] at hends hwild
    refine ⟨name, filter, rfl, ?_, hslash, not_mem_of_idxOf? hwild.2, not_mem_of_idxOf? hwild.1, ?_⟩
    · exact fun hname => hends.1 (List.length_eq_zero_iff.mpr hname)
    · rintro rfl
      exact hends.2 (by rw [List.length_append, List.length_singleton])
  · rw [List.idxOf?_eq_none_iff.mpr hmem] at h
    cases h

theorem shareError_none_iff (hlocal : ver = ProtoVer.v5 → noLocal = false)
    (hnul : (0 : UInt8) ∉ f) (hpre : sharePrefix <+: f) :
    shareError ver noLocal f f.length = none ↔ SubRequest.SharedForm f := by
  rw [shareError_of_local hlocal]
  exact ⟨sharedForm_of_accepted hnul hpre, SubRequest.shareError_sharedForm hnul⟩

/-- A refused filter leaves another code than the default one. -/
theorem shareError_ne_granted (ver : ProtoVer) (noLocal : Bool) (f : Bytes) (len : ℤ) :
    shareError ver noLocal f len ≠ some ReasonCode.grantedQos2 := by
  unfold shareError
  split_ifs
  · decide
  · decide
  · dsimp only
    cases ((cstr f).drop 7).idxOf? 0x2f with
    | none => exact (by decide : some ReasonCode.malformedPacket ≠ some ReasonCode.grantedQos2)
    | some k =>
      dsimp only
      split_ifs <;> decide
  · decide

end Share

section Entry

variable {nng : Nng} {ver : ProtoVer} {e : SubEntry} {pre post : Bytes}

theorem decodeSubOption_encode {tn : TopicNode} {reads : List (ℕ × ℕ)}
    (hlen : tn.topicLen = e.filter.length) (hretain : (e.opts.retainHandling : ℕ) ≤ 2) :
    let payload := pre ++ (e.encode ++ post)
    let r := decodeSubOption ver payload payload.length tn e.filter
      (pre.length + 2 + e.filter.length) reads
    let err := shareError ver e.opts.noLocal e.filter e.filter.length
    r.code = (if err = none then ReasonCode.success else ReasonCode.protocolError) ∧
      r.next = pre.length + 2 + e.filter.length + 1 ∧
      r.node = { tn with options := e.opts, reasonCode := err.getD tn.reasonCode } := by
  intro payload r err
  have hin : ¬ pre.length + 2 + e.filter.length ≥ payload.length := by
    rw [e.length_encode_append pre post]
    omega
  have hr : r = decodeSubOption ver payload payload.length tn e.filter
      (pre.length + 2 + e.filter.length) reads := rfl
  have hopts : SubOptions.ofByte (byteAt payload (pre.length + 2 + e.filter.length)) = e.opts := by
    rw [e.byteAt_encode pre post]
    rfl
  have herr : err = shareError ver e.opts.noLocal e.filter tn.topicLen := by rw [hlen]
  unfold decodeSubOption at hr
  dsimp only at hr
  rw [if_neg hin, hopts, if_neg (not_lt.mpr hretain), ← herr] at hr
  rw [hr]
  cases err with
  | none => exact ⟨rfl, rfl, rfl⟩
  | some code => exact ⟨rfl, rfl, rfl⟩

theorem decodeSubEntry_encode (ver : ProtoVer) (hlaw : nng.LawfulStr) (hne : e.filter ≠ [])
    (hlt : e.filter.length < 65536) (hutf : nng.utf8Check e.filter = true)
    (hretain : (e.opts.retainHandling : ℕ) ≤ 2)
    (hlen : (pre ++ (e.encode ++ post)).length < 2147483648) :
    let payload := pre ++ (e.encode ++ post)
    let r := decodeSubEntry nng ver payload payload.length pre.length
    let err := shareError ver e.opts.noLocal e.filter e.filter.length
    r.code = (if err = none then ReasonCode.success else ReasonCode.protocolError) ∧
      r.next = pre.length + e.encode.length ∧
      r.node = { e.node with reasonCode := err.getD ReasonCode.grantedQos2 } := by
  intro payload r err
  have hget := e.get16_encode pre post hlt
  have hpos := List.length_pos_iff.mpr hne
  have hnext : pre.length + 2 + e.filter.length + 1 = pre.length + e.encode.length := by
    rw [e.length_encode]
    omega
  have hr : r = decodeSubEntry nng ver payload payload.length pre.length := rfl
  rw [decodeSubEntry_of_isStr hlaw (e.isStr_encode pre post hlt hutf hlen) (by omega), hget,
    e.slice_encode pre post] at hr
  rw [hr, ← hnext]
  exact decodeSubOption_encode rfl hretain

end Entry

structure PassingEntry (nng : Nng) (ver : ProtoVer) (e : SubEntry) : Prop where
  nonempty : e.filter ≠ []
  filter_lt : e.filter.length < 65536
  utf8 : nng.utf8Check e.filter = true
  retain : (e.opts.retainHandling : ℕ) ≤ 2
  share : shareError ver e.opts.noLocal e.filter e.filter.length = none

theorem PassingEntry.entryAt {nng : Nng} {ver : ProtoVer} {e : SubEntry}
    (h : PassingEntry nng ver e) (pre post : Bytes)
    (hlen : (pre ++ (e.encode ++ post)).length < 2147483648) :
    EntryAt nng ver (pre ++ (e.encode ++ post)) pre.length e :=
  e.entryAt_encode pre post h.nonempty h.filter_lt h.utf8 hlen h.retain h.share

section Loop

variable {nng : Nng} {ver : ProtoVer} {before : List SubEntry} {e : SubEntry}

/-- The loop goes through entries that pass their checks to what stands behind them. -/
theorem decodeSubLoop_before (hlaw : nng.LawfulStr) (hvalid : ∀ r ∈ before, PassingEntry nng ver r)
    (pre tail : Bytes) (htail : tail ≠ []) {payload : Bytes}
    (hpayload : payload = pre ++ (encodeEntries before ++ tail))
    (hlen : payload.length < 2147483648) {fuel : ℕ} (hfuel : payload.length ≤ pre.length + fuel) :
    ∃ fuel' pos, payload.length ≤ pos + fuel' ∧
      pos = (pre ++ encodeEntries before).length ∧
      (decodeSubLoop nng ver payload payload.length fuel pre.length).code =
        (decodeSubLoop nng ver payload payload.length fuel' pos).code ∧
      (decodeSubLoop nng ver payload payload.length fuel pre.length).nodes =
        before.map SubEntry.node ++
          (decodeSubLoop nng ver payload payload.length fuel' pos).nodes := by
  induction before generalizing pre fuel with
  | nil => exact ⟨fuel, pre.length, hfuel, by simp [encodeEntries], rfl, rfl⟩
  | cons r rs ih =>
    rw [List.forall_mem_cons] at hvalid
    have hsplit : payload =
        pre ++ (r.encode ++ (encodeEntries rs ++ tail)) := by
      rw [hpayload, encodeEntries, List.flatMap_cons, ← encodeEntries, List.append_assoc]
    have hentry : EntryAt nng ver payload pre.length r := by
      rw [hsplit] at hlen ⊢
      exact hvalid.1.entryAt pre _ hlen
    have hnext : (pre ++ r.encode).length = pre.length + r.encode.length :=
      List.length_append
    have htailpos := List.length_pos_iff.mpr htail
    have hsize := congrArg List.length hsplit
    rw [List.length_append, List.length_append, List.length_append] at hsize
    have hpos := r.length_encode
    cases fuel with
    | zero => omega
    | succ fuel =>
      have hrest : payload.length ≤ (pre ++ r.encode).length + fuel := by omega
      obtain ⟨fuel', pos, hfuel', hend, hcode, hnodes⟩ :=
        ih hvalid.2 (pre ++ r.encode) (by rw [hsplit, List.append_assoc]) hrest
      have hstep : decodeSubLoop nng ver payload payload.length (fuel + 1) pre.length =
          (decodeSubLoop nng ver payload payload.length fuel
            (pre ++ r.encode).length).cons
              (decodeSubEntry nng ver payload payload.length pre.length) := by
        rw [decodeSubLoop, if_neg (by omega)]
        simp only [hentry.decodeSubEntry_eq hlaw]
        rw [if_neg (not_not.mpr rfl), if_pos (by omega), hnext]
      refine ⟨fuel', pos, hfuel', ?_, ?_, ?_⟩
      · rw [hend, List.append_assoc, encodeEntries, encodeEntries, List.flatMap_cons]
      · rw [hstep]
        exact hcode
      · rw [hstep, NodeScan.cons, hnodes, hentry.decodeSubEntry_eq hlaw]
        rfl

theorem decodeSubLoop_pass (nng : Nng) (ver : ProtoVer) {payload : Bytes} (fuel : ℕ) {pos : ℕ}
    (hin : pos < payload.length) :
    let r := decodeSubEntry nng ver payload payload.length pos
    let d := decodeSubLoop nng ver payload payload.length (fuel + 1) pos
    d.nodes.head? = some r.node ∧ (r.code ≠ ReasonCode.success → d.code = r.code) ∧
      (r.code = ReasonCode.success → payload.length ≤ r.next → d.code = ReasonCode.success) := by
  dsimp only
  rw [decodeSubLoop, if_neg (not_le.mpr hin)]
  dsimp only
  split_ifs with hcode hnext
  · exact ⟨rfl, fun _ => rfl, fun hok => absurd hok hcode⟩
  · refine ⟨rfl, fun hbad => absurd hbad hcode, fun _ hend => ?_⟩
    omega
  · exact ⟨rfl, fun hbad => absurd hbad hcode, fun _ _ => rfl⟩

end Loop

/-- The entry of a shared subscription, as far as the checks on shared filters do not decide. -/
structure SharedEntry (nng : Nng) (ver : ProtoVer) (e : SubEntry) : Prop where
  shared : sharePrefix <+: e.filter
  filter_lt : e.filter.length < 65536
  utf8 : nng.utf8Check e.filter = true
  no_nul : 0 ∉ e.filter
  retain : (e.opts.retainHandling : ℕ) ≤ 2
  noLocal : ver = ProtoVer.v5 → e.opts.noLocal = false

theorem SharedEntry.nonempty {nng : Nng} {ver : ProtoVer} {e : SubEntry}
    (h : SharedEntry nng ver e) : e.filter ≠ [] := by
  intro hnil
  have hpre := h.shared
  rw [hnil, List.prefix_nil] at hpre
  exact absurd hpre (by decide)

section Message

variable {nng : Nng} {m : Msg} {ver : ProtoVer} {id : ℕ} {block post : Bytes}
  {before : List SubEntry} {e : SubEntry}

theorem decodeSubMsg_payload {payload : Bytes}
    (hptr : nng.payloadPtr m = some (subPayloadStart nng m ver)) (hid : id ≠ 0) (hlt : id < 65536)
    (hblock : PropsBlock nng m ver block) (hbody : m.body = put16 id ++ (block ++ payload)) :
    let d := decodeSubMsg nng m ver
    let r := decodeSubLoop nng ver payload payload.length payload.length 0
    d.code = r.code ∧ d.packet.node = r.nodes := by
  have hstart := hblock.subPayloadStart_eq
  have hsize : m.body.length = 2 + (block.length + payload.length) := by
    rw [hbody, List.length_append, List.length_append, length_put16]
  have hget : get16 m.body 0 ≠ 0 := by
    rw [hbody, get16_put16_append _ _ hlt]
    exact hid
  have hlen : m.body.length - subPayloadStart nng m ver = payload.length := by omega
  dsimp only
  rw [decodeSubMsg_of_header hptr hget hblock.checked, decodeSubPayload, if_neg (by omega)]
  dsimp only
  rw [← subPayload, hlen, hblock.subPayload_eq hbody]
  exact ⟨rfl, rfl⟩

theorem decodeSubLoop_shared (hlaw : nng.LawfulStr) (hvalid : ∀ r ∈ before, PassingEntry nng ver r)
    (he : SharedEntry nng ver e) (post : Bytes) {payload : Bytes}
    (hpayload : payload = encodeEntries before ++ (e.encode ++ post))
    (hlen : payload.length < 2147483648) :
    let r := decodeSubLoop nng ver payload payload.length payload.length 0
    let err := shareError ver e.opts.noLocal e.filter e.filter.length
    r.nodes[before.length]? =
        some { e.node with reasonCode := err.getD ReasonCode.grantedQos2 } ∧
      (err ≠ none → r.code = ReasonCode.protocolError) ∧
      (err = none → post = [] → r.code = ReasonCode.success) := by
  dsimp only
  have htail : e.encode ++ post ≠ [] := by simp [SubEntry.encode, put16]
  obtain ⟨fuel, pos, hfuel, hpos, hcode, hnodes⟩ :=
    @decodeSubLoop_before nng ver before hlaw hvalid [] (e.encode ++ post) htail payload hpayload
      hlen payload.length (Nat.le_add_left _ 0)
  rw [List.length_nil] at hcode hnodes
  rw [List.nil_append] at hpos
  have hsize := e.length_encode_append (encodeEntries before) post
  rw [← hpayload] at hsize
  obtain ⟨hecode, henext, henode⟩ : _ ∧ _ ∧ _ :=
    decodeSubEntry_encode ver hlaw he.nonempty he.filter_lt he.utf8 he.retain (hpayload ▸ hlen)
  rw [← hpayload, ← hpos] at hecode henext henode
  cases fuel with
  | zero => omega
  | succ fuel =>
    obtain ⟨hhead, hbad, hgood⟩ : _ ∧ _ ∧ _ :=
      decodeSubLoop_pass nng ver fuel (by omega : pos < payload.length)
    refine ⟨?_, fun herr => ?_, fun herr hpost => ?_⟩
    · rw [hnodes, List.getElem?_append_right (by rw [List.length_map]), List.length_map,
        Nat.sub_self, ← List.head?_eq_getElem?, hhead, henode]
    · rw [if_neg herr] at hecode
      rw [hcode, hbad (by rw [hecode]; decide), hecode]
    · rw [if_pos herr] at hecode
      rw [hcode]
      refine hgood hecode ?_
      rw [henext, e.length_encode]
      rw [hpost, List.length_nil] at hsize
      omega

end Message

/-- The decoder accepts an entry for a shared filter, whatever comes behind it, exactly when the
filter has a name without slashes and wildcards and something behind the name. -/
theorem decodeSubMsg_shared_iff {nng : Nng} (hlaw : nng.LawfulStr) (hset : nng.SetsPayload)
    {m : Msg} {id : ℕ} {block post : Bytes} {before : List SubEntry} {e : SubEntry}
    (hid : id ≠ 0) (hlt : id < 65536)
    (hvalid : ∀ r ∈ before, PassingEntry nng (protoverOf m.connParam) r)
    (he : SharedEntry nng (protoverOf m.connParam) e)
    (hblock : PropsBlock nng m (protoverOf m.connParam) block)
    (hbody : m.body = put16 id ++
      (block ++ (encodeEntries before ++ (e.encode ++ post))))
    (hlen : m.body.length ≤ 268435455) :
    let d := decodeSubMsg nng m (protoverOf m.connParam)
    (d.packet.node[before.length]? = some e.node ↔ SubRequest.SharedForm e.filter) ∧
      (SubRequest.SharedForm e.filter → post = [] → d.code = ReasonCode.success) ∧
      (¬ SubRequest.SharedForm e.filter → d.code = ReasonCode.protocolError) := by
  dsimp only
  obtain ⟨hcode, hnodes⟩ := decodeSubMsg_payload (hset m) hid hlt hblock hbody
  have hsize := congrArg List.length hbody
  rw [List.length_append, List.length_append, length_put16] at hsize
  obtain ⟨hnode, hbad, hgood⟩ := decodeSubLoop_shared hlaw hvalid he post rfl (by omega)
  have hiff := shareError_none_iff he.noLocal he.no_nul he.shared
  rw [hcode, hnodes, hnode]
  refine ⟨⟨fun h => ?_, fun h => ?_⟩, fun h => hgood (hiff.mpr h), fun h => hbad (hiff.not.mpr h)⟩
  · apply hiff.mp
    have hreason := congrArg TopicNode.reasonCode (Option.some.inj h)
    cases herr : shareError (protoverOf m.connParam) e.opts.noLocal e.filter e.filter.length with
    | none => rfl
    | some code =>
      rw [herr] at hreason
      obtain rfl : code = ReasonCode.grantedQos2 := hreason
      exact absurd herr (shareError_ne_granted _ _ _ _)
  · rw [hiff.mpr h]
    rfl

/-- Wildcards behind the name do no harm, with bytes that are no entry behind them. -/
theorem decodeSubMsg_shared_wildcards :
    let e : SubEntry := ⟨ascii "$share/g/+/#", 0x13⟩
    let before : List SubEntry := [⟨ascii "b", 0x2f⟩]
    let m : Msg := { Msg.alloc with
      body := put16 7 ++ ([0] ++ (encodeEntries before ++
        (e.encode ++ [0xff])))
      connParam := some { ConnParam.bare with protover := ProtoVer.v5 } }
    (decodeSubMsg Nng.reference m ProtoVer.v5).packet.node[1]? = some e.node := by
  intro e before m
  have hvalid : ∀ r ∈ before, PassingEntry Nng.reference (protoverOf m.connParam) r := by
    intro r hr
    obtain rfl := List.mem_singleton.mp hr
    exact ⟨by decide, by decide, by decide, by decide, by decide⟩
  have hblock : PropsBlock Nng.reference m (protoverOf m.connParam) [0] :=
    ⟨fun hv => absurd rfl hv, fun _ => by decide, fun _ => rfl⟩
  have he : SharedEntry Nng.reference (protoverOf m.connParam) e :=
    ⟨by decide, by decide, by decide, by decide, by decide, fun _ => by decide⟩
  exact (decodeSubMsg_shared_iff Reference.lawfulStr Reference.setsPayload (by decide) (by decide)
    hvalid he hblock rfl (by decide)).1.mpr ⟨ascii "g", ascii "+/#", by decide, by decide,
      by decide, by decide, by decide, by decide⟩

end NanoMQ
