import NanoMQ.SubLayout

/-!
# Every well-formed SUBSCRIBE is decoded

`SubRequest` is a subscription as a client asks for it. The encoding of a list of them behind a
packet identifier and an accepted property block is decoded to one node for each, in order, with the
default reason code.
-/

namespace NanoMQ

open ByteBuffer

namespace SubEntry

section Bytes

variable {nng : Nng} {ver : ProtoVer} (e : SubEntry) (pre post : Bytes)

theorem encode_append :
    pre ++ (e.encode ++ post) =
      pre ++ (put16 e.filter.length ++ (e.filter ++ e.options :: post)) := by
  rw [encode, List.append_assoc, List.append_assoc, List.singleton_append]

theorem get16_encode (hlt : e.filter.length < 65536) :
    get16 (pre ++ (e.encode ++ post)) pre.length = e.filter.length := by
  rw [encode_append, get16_append_put16 _ _ _ hlt]

theorem slice_encode :
    slice (pre ++ (e.encode ++ post)) (pre.length + 2) e.filter.length = e.filter := by
  have hpre : (pre ++ put16 e.filter.length).length = pre.length + 2 := by
    rw [List.length_append, length_put16]
  rw [encode_append, ← List.append_assoc, ← hpre]
  exact slice_append_right _ _ _

theorem byteAt_encode :
    byteAt (pre ++ (e.encode ++ post)) (pre.length + 2 + e.filter.length) = e.options := by
  have hpre : (pre ++ put16 e.filter.length ++ e.filter).length =
      pre.length + 2 + e.filter.length := by
    rw [List.length_append, List.length_append, length_put16]
  have hbyte := byteAt_append_right (pre ++ put16 e.filter.length ++ e.filter)
    (e.options :: post) 0
  rw [Nat.add_zero, hpre] at hbyte
  rw [encode_append, ← List.append_assoc, ← List.append_assoc]
  exact hbyte

theorem length_encode_append :
    (pre ++ (e.encode ++ post)).length = pre.length + (e.filter.length + 3 + post.length) := by
  rw [List.length_append, List.length_append, length_encode]

theorem isStr_encode (hlt : e.filter.length < 65536) (hutf : nng.utf8Check e.filter = true)
    (hlen : (pre ++ (e.encode ++ post)).length < 2147483648) :
    nng.IsStr (pre ++ (e.encode ++ post)) pre.length
      (i32 ((pre ++ (e.encode ++ post)).length - pre.length)) := by
  have hsize := e.length_encode_append pre post
  refine ⟨?_, ?_⟩
  · rw [get16_encode e pre post hlt, i32_of_lt (by omega)]
    omega
  · rw [get16_encode e pre post hlt, slice_encode]
    exact hutf

/-- An entry that passes its checks stands behind any front part. -/
theorem entryAt_encode (hne : e.filter ≠ []) (hlt : e.filter.length < 65536)
    (hutf : nng.utf8Check e.filter = true)
    (hlen : (pre ++ (e.encode ++ post)).length < 2147483648)
    (hretain : (e.opts.retainHandling : ℕ) ≤ 2)
    (hshare : shareError ver e.opts.noLocal e.filter e.filter.length = none) :
    EntryAt nng ver (pre ++ (e.encode ++ post)) pre.length e := by
  refine ⟨isStr_encode e pre post hlt hutf hlen, ?_, hne, ?_, (byteAt_encode e pre post).symm,
    hretain, hshare⟩
  · rw [get16_encode e pre post hlt, slice_encode]
  · rw [length_encode_append]
    omega

end Bytes

end SubEntry

structure SubRequest where
  filter : Bytes
  options : SubOptions
  deriving DecidableEq, Repr

namespace SubRequest

def entry (r : SubRequest) : SubEntry := ⟨r.filter, r.options.toByte⟩

def node (r : SubRequest) : TopicNode :=
  ⟨r.options, ReasonCode.grantedQos2, some r.filter, r.filter.length⟩

def SharedForm (f : Bytes) : Prop :=
  ∃ name rest, f = sharePrefix ++ (name ++ 0x2f :: rest) ∧ name ≠ [] ∧ 0x2f ∉ name ∧ 0x2b ∉ name ∧
    0x23 ∉ name ∧ rest ≠ []

structure Valid (nng : Nng) (r : SubRequest) : Prop where
  nonempty : r.filter ≠ []
  filter_lt : r.filter.length < 65536
  utf8 : nng.utf8Check r.filter = true
  no_nul : 0 ∉ r.filter
  qos : (r.options.qos : ℕ) ≤ 2
  retain : (r.options.retainHandling : ℕ) ≤ 2
  share : sharePrefix <+: r.filter → SharedForm r.filter ∧ r.options.noLocal = false

theorem opts_entry (r : SubRequest) : r.entry.opts = r.options := SubOptions.ofByte_toByte r.options

theorem node_entry (r : SubRequest) : r.entry.node = r.node := by
  rw [SubEntry.node, opts_entry]
  rfl

theorem shareError_sharedForm {ver : ProtoVer} {f : Bytes} (hnul : (0 : UInt8) ∉ f)
    (h : SharedForm f) : shareError ver false f f.length = none := by
  obtain ⟨name, rest, hf, hname, hslash, hplus, hhash, hrest⟩ := h
  have hpre : sharePrefix.isPrefixOf (cstr f) = true := by
    rw [cstr_of_not_mem hnul, hf]
    exact List.isPrefixOf_iff_prefix.mpr (List.prefix_append _ _)
  have hdrop : (cstr f).drop 7 = name ++ 0x2f :: rest := by
    rw [cstr_of_not_mem hnul, hf]
    exact List.drop_left' rfl
  have hpos := List.length_pos_iff.mpr hname
  have hpos' := List.length_pos_iff.mpr hrest
  have hlen : f.length = 7 + (name.length + (rest.length + 1)) := by
    rw [hf, List.length_append, List.length_append, List.length_cons]
    rfl
  have hbefore : ∀ c, c ∉ name →
      ((name ++ 0x2f :: rest).idxOf? c).any (· < name.length) = false := by
    intro c hc
    cases hk : (name ++ 0x2f :: rest).idxOf? c with
    | none => rfl
    | some k => exact decide_eq_false (not_lt.mpr (length_le_of_idxOf? hc hk))
  unfold shareError
  rw [if_pos hpre, if_neg (by simp), if_neg (by omega)]
  dsimp only
  rw [hdrop, idxOf?_append_self hslash]
  dsimp only
  rw [if_neg, if_neg]
  · rw [hbefore _ hhash, hbefore _ hplus]
    simp
  · rw [List.length_append, List.length_cons]
    omega

theorem Valid.shareError_eq {nng : Nng} {ver : ProtoVer} {r : SubRequest} (h : r.Valid nng) :
    shareError ver r.options.noLocal r.filter r.filter.length = none := by
  by_cases hshare : sharePrefix <+: r.filter
  · obtain ⟨hform, hlocal⟩ := h.share hshare
    rw [hlocal]
    exact shareError_sharedForm h.no_nul hform
  · have hpre : ¬ sharePrefix.isPrefixOf (cstr r.filter) = true := by
      rw [cstr_of_not_mem h.no_nul, List.isPrefixOf_iff_prefix]
      exact hshare
    rw [shareError, if_neg hpre]

theorem Valid.entryAt {nng : Nng} {ver : ProtoVer} {r : SubRequest} (h : r.Valid nng)
    (pre post : Bytes) (hlen : (pre ++ (r.entry.encode ++ post)).length < 2147483648) :
    EntryAt nng ver (pre ++ (r.entry.encode ++ post)) pre.length r.entry := by
  refine r.entry.entryAt_encode pre post h.nonempty h.filter_lt h.utf8 hlen ?_ ?_
  · rw [opts_entry]
    exact h.retain
  · rw [opts_entry]
    exact h.shareError_eq

theorem entries_encode {nng : Nng} (ver : ProtoVer) {rs : List SubRequest}
    (h : ∀ r ∈ rs, r.Valid nng) (pre : Bytes)
    (hlen : (pre ++ encodeEntries (rs.map entry)).length < 2147483648) :
    Entries nng ver (pre ++ encodeEntries (rs.map entry)) pre.length (rs.map entry) := by
  induction rs generalizing pre with
  | nil =>
    apply Entries.stop
    rw [List.map_nil, encodeEntries, List.flatMap_nil, List.append_nil]
  | cons r rs ih =>
    have hcons : encodeEntries ((r :: rs).map entry) =
        r.entry.encode ++ encodeEntries (rs.map entry) := by
      rw [List.map_cons, encodeEntries, List.flatMap_cons, ← encodeEntries]
    rw [hcons] at hlen ⊢
    refine .entry ((h r List.mem_cons_self).entryAt pre _ hlen) ?_
    rw [← List.append_assoc] at hlen ⊢
    rw [← List.length_append]
    exact ih (fun x hx => h x (List.mem_cons_of_mem r hx)) (pre ++ r.entry.encode) hlen

end SubRequest

section Encoded

variable {nng : Nng} {m : Msg} {ver : ProtoVer} {id : ℕ} {block : Bytes} {rs : List SubRequest}

theorem framed_encode (hid : id ≠ 0) (hlt : id < 65536) (hvalid : ∀ r ∈ rs, r.Valid nng)
    (hblock : PropsBlock nng m ver block)
    (hbody : m.body = put16 id ++ (block ++ encodeEntries (rs.map SubRequest.entry)))
    (hlen : m.body.length ≤ 268435455) : Framed nng m ver (rs.map SubRequest.entry) := by
  have hpayload := hblock.subPayload_eq hbody
  have hsize : m.body.length = 2 + (block.length + (subPayload nng m ver).length) := by
    rw [hpayload, hbody, List.length_append, List.length_append, length_put16]
  refine ⟨?_, hblock.checked, ?_, ?_⟩
  · rw [hbody, get16_put16_append _ _ hlt]
    exact hid
  · rw [hblock.subPayloadStart_eq]
    omega
  · have hentries := SubRequest.entries_encode ver hvalid [] (by
      rw [List.nil_append, ← hpayload]
      omega)
    rwa [List.nil_append, ← hpayload] at hentries

end Encoded

/-- The decoder gives back every SUBSCRIBE that follows the standard. Its loop ends by itself: any
bound on the number of passes from the length of the payload on leads to the same nodes. -/
theorem decodeSubMsg_complete {nng : Nng} (hlaw : nng.LawfulStr) (hset : nng.SetsPayload)
    {m : Msg} {id : ℕ} {block : Bytes} {rs : List SubRequest} (hid : id ≠ 0) (hlt : id < 65536)
    (hne : rs ≠ []) (hvalid : ∀ r ∈ rs, r.Valid nng)
    (hblock : PropsBlock nng m (protoverOf m.connParam) block)
    (hbody : m.body = put16 id ++ (block ++ encodeEntries (rs.map SubRequest.entry)))
    (hlen : m.body.length ≤ 268435455) :
    let ver := protoverOf m.connParam
    let d := decodeSubMsg nng m ver
    let payload := encodeEntries (rs.map SubRequest.entry)
    (d.code = ReasonCode.success ∧ d.packet.packetId = id ∧
      d.packet.node = rs.map SubRequest.node) ∧
    ∀ fuel, payload.length ≤ fuel →
      (decodeSubLoop nng ver payload payload.length fuel 0).nodes = rs.map SubRequest.node := by
  intro ver d payload
  have hframed := framed_encode hid hlt hvalid hblock hbody hlen
  obtain ⟨reads, heq⟩ := hframed.decodeSubMsg_eq hlaw (hset m)
  have hnodes : nodesOf (rs.map SubRequest.entry) = rs.map SubRequest.node := by
    cases rs with
    | nil => exact absurd rfl hne
    | cons r rs =>
      rw [List.map_cons, nodesOf, ← List.map_cons, List.map_map]
      exact List.map_congr_left (fun x _ => x.node_entry)
  have hpayload : subPayload nng m ver = payload := by
    have hdrop := hframed.entries.drop_eq
    rwa [List.drop_zero] at hdrop
  have hd : d = _ := heq
  refine ⟨⟨?_, ?_, ?_⟩, fun fuel hfuel => ?_⟩
  · rw [hd]
  · rw [hd]
    dsimp only
    rw [packetId_subHeader, hbody, get16_put16_append _ _ hlt]
  · rw [hd]
    exact hnodes
  · have hloop := hframed.entries
    rw [hpayload] at hloop
    rw [hloop.decodeSubLoop_eq hlaw (by omega)]
    exact hnodes

/-- A shared subscription and a plain one, in MQTT 5 with an empty property block. -/
theorem decodeSubMsg_complete_shared :
    let rs : List SubRequest :=
      [⟨ascii "$share/g/a/#", ⟨1, false, true, 0⟩⟩, ⟨ascii "b", ⟨2, true, false, 2⟩⟩]
    let m : Msg := { Msg.alloc with
      body := put16 7 ++ ([0] ++ encodeEntries (rs.map SubRequest.entry))
      connParam := some { ConnParam.bare with protover := ProtoVer.v5 } }
    (decodeSubMsg Nng.reference m ProtoVer.v5).packet.node = rs.map SubRequest.node := by
  intro rs m
  have hvalid : ∀ r ∈ rs, r.Valid Nng.reference := by
    intro r hr
    rcases List.mem_cons.mp hr with rfl | hr
    · refine ⟨by decide, by decide, by decide, by decide, by decide, by decide, fun _ => ⟨?_, rfl⟩⟩
      exact ⟨ascii "g", ascii "a/#", by decide, by decide, by decide, by decide, by decide,
        by decide⟩
    · obtain rfl := List.mem_singleton.mp hr
      exact ⟨by decide, by decide, by decide, by decide, by decide, by decide,
        fun hshare => absurd hshare (by decide)⟩
  have hblock : PropsBlock Nng.reference m (protoverOf m.connParam) [0] :=
    ⟨fun hv => absurd rfl hv, fun _ => by decide, fun _ => rfl⟩
  exact (decodeSubMsg_complete Reference.lawfulStr Reference.setsPayload (by decide) (by decide)
    (by decide) hvalid hblock rfl (by decide)).1.2.2

end NanoMQ
