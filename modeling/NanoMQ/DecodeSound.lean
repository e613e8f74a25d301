import NanoMQ.DecodeAccepts
import NanoMQ.Reference

/-!
# What a decoded PUBLISH says about its body

`PublishLayout` is the format of the standard: the topic behind its length, a packet identifier for
the higher qualities of service, the property block of MQTT 5 and the payload. A body that
`decode_pub_message` accepts has this layout, with the packet holding its parts, exactly when the
topic is a valid string and the payload length fits its 32-bit field.
-/

namespace NanoMQ

open ByteBuffer

section Layout

variable (nng : Nng) (m : Msg) (proto : ProtoVer)

def identLen : ℕ := if (m.fixedHeader nng).qos > 0 then 2 else 0

def propsStart : ℕ := 2 + get16 m.body 0 + identLen nng m

def payloadStart : ℕ :=
  if proto = ProtoVer.v5 then (nng.decodeProperties m (propsStart nng m)).pos
  else propsStart nng m

structure PublishLayout (topic ident block rest : Bytes) : Prop where
  body : m.body = put16 topic.length ++ (topic ++ (ident ++ (block ++ rest)))
  topic_lt : topic.length < 65536
  utf8 : nng.utf8Check topic = true
  no_plus : 0x2b ∉ topic
  no_hash : 0x23 ∉ topic
  ident_len : ident.length = if (m.fixedHeader nng).qos > 0 then 2 else 0
  block_nil : proto ≠ ProtoVer.v5 → block = []
  block_end : proto = ProtoVer.v5 →
    (nng.decodeProperties m (2 + topic.length + ident.length)).pos =
      2 + topic.length + ident.length + block.length
  block_check : proto = ProtoVer.v5 → ∀ l,
    (nng.decodeProperties m (2 + topic.length + ident.length)).list = some l →
      nng.checkProperties (some l) m = 0

structure HoldsParts (pkt : PubPacket) (topic ident rest : Bytes) : Prop where
  header : pkt.fixedHeader = m.fixedHeader nng
  topicBody : pkt.topicBody = if topic = [] then none else some topic
  topicLen : pkt.topicLen = topic.length
  packetId : (m.fixedHeader nng).qos > 0 → ident = put16 pkt.packetId.toNat
  properties : pkt.properties =
    if proto = ProtoVer.v5 then
      (nng.decodeProperties m (2 + topic.length + ident.length)).list else none
  payloadLen : pkt.payloadLen = rest.length
  payloadData : pkt.payloadData = if rest = [] then none else some rest

/-- The decoding is sound: the body has the layout, the packet holds its parts, and nothing behind
the body was read. -/
def SoundDecoding (d : Decoded) : Prop :=
  (∃ topic ident block rest, PublishLayout nng m proto topic ident block rest ∧
    HoldsParts nng m proto d.packet topic ident rest) ∧
  ∀ span ∈ d.reads, span.1 + span.2 ≤ m.body.length

end Layout

theorem propsStart_le_payloadStart {nng : Nng} (hadv : nng.PropsAdvance) (m : Msg)
    (proto : ProtoVer) : propsStart nng m ≤ payloadStart nng m proto := by
  unfold payloadStart
  split_ifs
  · exact hadv m (propsStart nng m)
  · exact le_rfl

section ValidTopic

variable {nng : Nng} {m : Msg} {proto : ProtoVer} (hlaw : nng.LawfulStr)
  (hstr : nng.IsStr m.body 0 (i32 m.body.length))

include hlaw hstr

theorem topicStr_of_isStr :
    topicStr nng m =
      ⟨if get16 m.body 0 = 0 then none else some (slice m.body 2 (get16 m.body 0)),
        get16 m.body 0, 2 + get16 m.body 0⟩ := by
  have h := hlaw.copyn_valid m.body 0 (i32 m.body.length) hstr
  rwa [Nat.zero_add] at h

omit hlaw in
theorem topic_end_le : 2 + get16 m.body 0 ≤ m.body.length := by
  have h := hstr.1.trans (i32_le m.body.length)
  omega

theorem identEnd_of_isStr : identEnd nng m = propsStart nng m := by
  have hlt := get16_lt m.body 0
  have hpos : (topicStr nng m).pos = 2 + get16 m.body 0 := by rw [topicStr_of_isStr hlaw hstr]
  rw [identEnd, propsStart, identLen, hpos]
  split_ifs
  · exact Nat.mod_eq_of_lt (by omega)
  · rfl

theorem blockEnd_of_isStr : blockEnd nng m proto = payloadStart nng m proto := by
  rw [blockEnd, payloadStart, identEnd_of_isStr hlaw hstr]

theorem topic_no_wildcard (h : Accepts nng m proto) :
    0x2b ∉ slice m.body 2 (get16 m.body 0) ∧ 0x23 ∉ slice m.body 2 (get16 m.body 0) := by
  have htopic := h.topic
  rw [topicStr_of_isStr hlaw hstr] at htopic
  have hnul := hlaw.utf8_no_nul _ hstr.2
  rw [Nat.zero_add] at hnul
  by_cases hz : get16 m.body 0 = 0
  · simp [hz, slice]
  · simp only [if_neg hz, topicHasWildcard, Bool.or_eq_false_iff] at htopic
    constructor
    · intro hmem
      exact Bool.false_ne_true (htopic.1.symm.trans ((strchr_of_not_mem hnul _).mpr hmem))
    · intro hmem
      exact Bool.false_ne_true (htopic.2.symm.trans ((strchr_of_not_mem hnul _).mpr hmem))

theorem propsStart_le (h : Accepts nng m proto) : propsStart nng m ≤ m.body.length := by
  have hend := topic_end_le hstr
  by_cases hq : (m.fixedHeader nng).qos > 0
  · rw [← identEnd_of_isStr hlaw hstr]
    exact h.ident hq
  · rw [propsStart, identLen, if_neg hq]
    exact hend

theorem payloadStart_le (h : Accepts nng m proto) : payloadStart nng m proto ≤ m.body.length := by
  rw [← blockEnd_of_isStr hlaw hstr]
  exact h.blockEnd_le

omit hlaw in
theorem length_topic : (slice m.body 2 (get16 m.body 0)).length = get16 m.body 0 :=
  length_slice _ _ _ (topic_end_le hstr)

theorem length_ident (h : Accepts nng m proto) :
    (slice m.body (2 + get16 m.body 0) (identLen nng m)).length = identLen nng m :=
  length_slice _ _ _ (propsStart_le hlaw hstr h)

theorem length_block (hadv : nng.PropsAdvance) (h : Accepts nng m proto) :
    (slice m.body (propsStart nng m) (payloadStart nng m proto - propsStart nng m)).length =
      payloadStart nng m proto - propsStart nng m := by
  have hle := propsStart_le_payloadStart hadv m proto
  have hend := payloadStart_le hlaw hstr h
  exact length_slice _ _ _ (by omega)

omit hlaw in
theorem body_parts (hadv : nng.PropsAdvance) :
    m.body = put16 (get16 m.body 0) ++ (slice m.body 2 (get16 m.body 0) ++
      (slice m.body (2 + get16 m.body 0) (identLen nng m) ++
        (slice m.body (propsStart nng m) (payloadStart nng m proto - propsStart nng m) ++
          m.body.drop (payloadStart nng m proto)))) := by
  have hle := propsStart_le_payloadStart hadv m proto
  have htwo : 0 + 2 ≤ m.body.length := by
    have := topic_end_le hstr
    omega
  have hblock := slice_append_drop m.body (propsStart nng m)
    (payloadStart nng m proto - propsStart nng m)
  rw [Nat.add_sub_cancel' hle] at hblock
  rw [hblock, propsStart, slice_append_drop, slice_append_drop, ← slice_two_eq_put16 m.body 0 htwo]
  exact (slice_append_drop m.body 0 2).symm

theorem publishLayout_of_accepts (hadv : nng.PropsAdvance) (h : Accepts nng m proto) :
    PublishLayout nng m proto (slice m.body 2 (get16 m.body 0))
      (slice m.body (2 + get16 m.body 0) (identLen nng m))
      (slice m.body (propsStart nng m) (payloadStart nng m proto - propsStart nng m))
      (m.body.drop (payloadStart nng m proto)) := by
  have htopic := length_topic hstr
  have hident := length_ident hlaw hstr h
  have hblock := length_block hlaw hstr hadv h
  have hle := propsStart_le_payloadStart hadv m proto
  have hok := h.block
  rw [BlockOk, identEnd_of_isStr hlaw hstr] at hok
  constructor
  · rw [htopic]
    exact body_parts hstr hadv
  · rw [htopic]
    exact get16_lt m.body 0
  · have hutf := hstr.2
    rwa [Nat.zero_add] at hutf
  · exact (topic_no_wildcard hlaw hstr h).1
  · exact (topic_no_wildcard hlaw hstr h).2
  · exact hident
  · intro hv
    rw [payloadStart, if_neg hv, Nat.sub_self]
    exact List.take_zero
  · intro hv
    rw [htopic, hident, hblock]
    change (nng.decodeProperties m (propsStart nng m)).pos =
      propsStart nng m + (payloadStart nng m proto - propsStart nng m)
    rw [Nat.add_sub_cancel' hle, payloadStart, if_pos hv]
  · intro hv l hl
    rw [htopic, hident] at hl
    rw [if_pos hv] at hok
    exact hok.1 l hl

theorem holdsParts_of_accepts (h : Accepts nng m proto)
    (hfit : m.body.length < payloadStart nng m proto + 4294967296) :
    HoldsParts nng m proto (acceptedPacket nng m proto) (slice m.body 2 (get16 m.body 0))
      (slice m.body (2 + get16 m.body 0) (identLen nng m))
      (m.body.drop (payloadStart nng m proto)) := by
  have htopic := length_topic hstr
  have hident := length_ident hlaw hstr h
  have hlt := get16_lt m.body 0
  have hstr' := topicStr_of_isStr hlaw hstr
  have hrest : restLen nng m proto = m.body.length - payloadStart nng m proto := by
    rw [restLen, blockEnd_of_isStr hlaw hstr]
    exact Nat.mod_eq_of_lt (by omega)
  constructor
  · rfl
  · change (topicStr nng m).dest = _
    have hnil : slice m.body 2 (get16 m.body 0) = [] ↔ get16 m.body 0 = 0 := by
      rw [← List.length_eq_zero_iff, htopic]
    simp only [hstr', hnil]
  · change u32 (topicStr nng m).len = _
    rw [hstr', htopic]
    exact u32_natCast (by omega)
  · intro hq
    have hid : (acceptedPacket nng m proto).packetId.toNat = get16 m.body (2 + get16 m.body 0) := by
      have hlt' := get16_lt m.body (2 + get16 m.body 0)
      simp only [acceptedPacket, if_pos hq, hstr', UInt16.toNat_ofNat']
      exact Nat.mod_eq_of_lt hlt'
    have hin := propsStart_le hlaw hstr h
    rw [propsStart] at hin
    rw [identLen, if_pos hq] at hin ⊢
    rw [hid, slice_two_eq_put16 _ _ hin]
  · rw [htopic, hident]
    change decodedProps nng m proto = _
    rw [decodedProps, identEnd_of_isStr hlaw hstr]
    rfl
  · change restLen nng m proto = _
    rw [hrest, List.length_drop]
  · have hnil : m.body.drop (payloadStart nng m proto) = [] ↔ ¬ restLen nng m proto > 0 := by
      rw [hrest, List.drop_eq_nil_iff]
      omega
    have hslice : slice m.body (payloadStart nng m proto) (restLen nng m proto) =
        m.body.drop (payloadStart nng m proto) := by
      rw [slice, hrest, ← List.length_drop, List.take_length]
    simp only [acceptedPacket, hnil, ite_not, blockEnd_of_isStr hlaw hstr, hslice]

theorem acceptedReads_le (h : Accepts nng m proto) :
    ∀ span ∈ acceptedReads nng m proto, span.1 + span.2 ≤ m.body.length := by
  have htopic := topic_end_le hstr
  have hprops := propsStart_le hlaw hstr h
  have hend := payloadStart_le hlaw hstr h
  have hpos : (topicStr nng m).pos = 2 + get16 m.body 0 := by rw [topicStr_of_isStr hlaw hstr]
  intro span hspan
  simp only [acceptedReads, identEnd_of_isStr hlaw hstr, blockEnd_of_isStr hlaw hstr, hpos,
    List.mem_append, or_assoc] at hspan
  rcases hspan with hs | hs | hs | hs
  · obtain rfl := List.mem_singleton.mp hs
    dsimp only
    omega
  · split_ifs at hs with hq
    · obtain rfl := List.mem_singleton.mp hs
      rwa [propsStart, identLen, if_pos hq] at hprops
    · cases hs
  · split_ifs at hs with hv
    · obtain rfl := List.mem_singleton.mp hs
      rw [payloadStart, if_pos hv] at hend
      dsimp only
      omega
    · cases hs
  · split_ifs at hs with hr
    · obtain rfl := List.mem_singleton.mp hs
      have hmod := Nat.mod_le (m.body.length - payloadStart nng m proto) 4294967296
      simp only [restLen, blockEnd_of_isStr hlaw hstr]
      omega
    · cases hs

end ValidTopic

theorem SoundDecoding.topicLen_lt {nng : Nng} {m : Msg} {proto : ProtoVer} {d : Decoded}
    (h : SoundDecoding nng m proto d) : d.packet.topicLen < 65536 := by
  obtain ⟨⟨topic, ident, block, rest, hlay, hparts⟩, -⟩ := h
  rw [hparts.topicLen]
  exact hlay.topic_lt

theorem PublishLayout.length_body {nng : Nng} {m : Msg} {proto : ProtoVer}
    {topic ident block rest : Bytes} (h : PublishLayout nng m proto topic ident block rest) :
    m.body.length = payloadStart nng m proto + rest.length := by
  have hlen : get16 m.body 0 = topic.length := by
    rw [h.body, get16_put16_append _ _ h.topic_lt]
  have hprops : propsStart nng m = 2 + topic.length + ident.length := by
    rw [propsStart, identLen, hlen, h.ident_len]
  have hstart : payloadStart nng m proto = 2 + topic.length + ident.length + block.length := by
    rw [payloadStart, hprops]
    split_ifs with hv
    · exact h.block_end hv
    · rw [h.block_nil hv, List.length_nil, Nat.add_zero]
  have hbody := congrArg List.length h.body
  simp only [List.length_append, length_put16] at hbody
  omega

/-- An accepted PUBLISH is decoded soundly exactly when its topic is a valid string within the body
and its payload is shorter than `2 ^ 32` bytes. -/
theorem decodePubMessage_sound_iff {nng : Nng} (hlaw : nng.LawfulStr) (hadv : nng.PropsAdvance)
    {m : Msg} {proto : ProtoVer} (hpub : m.getType = PacketType.publish)
    (hok : (decodePubMessage nng m proto PubPacket.zalloc).code = ReasonCode.success) :
    SoundDecoding nng m proto (decodePubMessage nng m proto PubPacket.zalloc) ↔
      nng.IsStr m.body 0 (i32 m.body.length) ∧
        m.body.length < payloadStart nng m proto + 4294967296 := by
  have hacc := (decodePubMessage_success_iff hpub _).mp hok
  rw [hacc.decodePubMessage_eq hpub]
  constructor
  · intro h
    have hstr : nng.IsStr m.body 0 (i32 m.body.length) := by
      by_contra hbad
      have hlt : u32 (topicStr nng m).len < 65536 := h.topicLen_lt
      have hneg : (topicStr nng m).len = -1 := (hlaw.copyn_invalid _ _ _ hbad).2
      rw [hneg] at hlt
      exact absurd hlt (by decide)
    refine ⟨hstr, ?_⟩
    obtain ⟨⟨topic, ident, block, rest, hlay, hparts⟩, -⟩ := h
    have hrest : restLen nng m proto = rest.length := hparts.payloadLen
    have hmod := Nat.mod_lt (m.body.length - blockEnd nng m proto) (y := 4294967296) (by decide)
    have hbody := hlay.length_body
    rw [restLen] at hrest
    omega
  · rintro ⟨hstr, hfit⟩
    exact ⟨⟨_, _, _, _, publishLayout_of_accepts hlaw hstr hadv hacc,
      holdsParts_of_accepts hlaw hstr hacc hfit⟩, acceptedReads_le hlaw hstr hacc⟩

/-- A PUBLISH to topic `t` with payload `x`. -/
theorem decodePubMessage_sound_small :
    let m : Msg := { Msg.alloc with header := [0x30, 4], body := [0, 1, 0x74, 0x78] }
    SoundDecoding Nng.reference m ProtoVer.v311
      (decodePubMessage Nng.reference m ProtoVer.v311 PubPacket.zalloc) :=
  (decodePubMessage_sound_iff Reference.lawfulStr Reference.propsAdvance rfl (by decide)).mpr
    (by decide)

/-- A body that announces five bytes of topic and ends after one is accepted, with no topic and a
topic length that no packet can have. -/
theorem decodePubMessage_accepts_truncated_topic :
    let m : Msg := { Msg.alloc with header := [0x30, 3], body := [0, 5, 0x61] }
    let d := decodePubMessage Nng.reference m ProtoVer.v311 PubPacket.zalloc
    d.code = ReasonCode.success ∧ d.packet.topicLen = 4294967295 ∧
      ¬ SoundDecoding Nng.reference m ProtoVer.v311 d := by
  refine ⟨by decide, by decide, ?_⟩
  intro h
  exact absurd h.topicLen_lt (by decide)

end NanoMQ
