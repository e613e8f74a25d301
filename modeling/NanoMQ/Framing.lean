import NanoMQ.Sources

/-!
# The frame between the HTTP server and the broker

`encode_common_mqtt_msg` writes the header, the body and the client identifier of a message, each
behind its length in four bytes, and the protocol version; `decode_common_mqtt_msg` takes the parts
out of the frame again. The length of the client identifier is a `size_t` on the one side and a
`uint32_t` on the other, and so is the size of the buffer it is copied to.
-/

namespace NanoMQ

open ByteBuffer

/-- `encode_common_mqtt_msg` for a message that the SDK has encoded into its header and body. -/
def encodeCommonMqttMsg (src : Msg) (clientid : Bytes) (ver : ProtoVer) : Msg :=
  { Msg.alloc with
    body := put32 src.header.length ++ (src.header ++ (put32 src.body.length ++ (src.body ++
      (put32 clientid.length ++ (clientid ++ [ver]))))) }

structure FrameLens where
  headerLen : ℕ
  bodyLen : ℕ
  clientidSz : ℕ
  deriving DecidableEq

def FrameLens.read (frame : Bytes) : FrameLens :=
  let headerLen := get32 frame 0
  let bodyLen := get32 frame (4 + headerLen)
  ⟨headerLen, bodyLen, get32 frame (8 + headerLen + bodyLen)⟩

/-- The spans of the frame that `decode_common_mqtt_msg` reads, each with its start and length. -/
def FrameLens.spans (l : FrameLens) : List (ℕ × ℕ) :=
  [(0, 4), (4, l.headerLen), (4 + l.headerLen, 4), (8 + l.headerLen, l.bodyLen),
    (8 + l.headerLen + l.bodyLen, 4), (12 + l.headerLen + l.bodyLen, l.clientidSz),
    (12 + l.headerLen + l.bodyLen + l.clientidSz, 1)]

/-- `nng_zalloc(clientid_sz + 1)`, in the arithmetic of `uint32_t`. -/
def FrameLens.clientidAlloc (l : FrameLens) : ℕ := (l.clientidSz + 1) % 4294967296

/-- `decode_common_mqtt_msg` with the copy of the client identifier: `none` when the buffer is too
small for it and its terminating zero. -/
def decodeFrame (src : Msg) : Option Msg :=
  if (FrameLens.read src.body).clientidSz < (FrameLens.read src.body).clientidAlloc then
    some (decodeCommonMqttMsg src)
  else none

structure FrameRoundTrip (src : Msg) (clientid : Bytes) (ver : ProtoVer) (m : Msg) : Prop where
  sameHeader : m.header = src.header
  sameBody : m.body = src.body
  sameClient : m.connParam.bind ConnParam.clientid = some clientid
  sameVersion : m.connParam.map ConnParam.protover = some ver
  reads : ∀ i, (∃ span ∈ (FrameLens.read (encodeCommonMqttMsg src clientid ver).body).spans,
      span.1 ≤ i ∧ i < span.1 + span.2) ↔ i < (encodeCommonMqttMsg src clientid ver).body.length

theorem get32_at {b pre post : Bytes} {n i : ℕ} (hb : b = pre ++ (put32 n ++ post))
    (hi : i = pre.length) : get32 b i = n % 4294967296 := by
  rw [hb, hi, ← get32_put32_append n post]
  exact get32_append_right pre _ 0

theorem slice_at {b pre mid post : Bytes} {i n : ℕ} (hb : b = pre ++ (mid ++ post))
    (hi : i = pre.length) (hn : n = mid.length) : slice b i n = mid := by
  rw [hb, hi, hn]
  exact slice_append_right pre mid post

def frameFront (src : Msg) : Bytes :=
  put32 src.header.length ++ (src.header ++ (put32 src.body.length ++ src.body))

theorem length_frameFront (src : Msg) :
    (frameFront src).length = 8 + src.header.length + src.body.length := by
  simp only [frameFront, List.length_append, length_put32]
  omega

theorem body_encode (src : Msg) (clientid : Bytes) (ver : ProtoVer) :
    (encodeCommonMqttMsg src clientid ver).body =
      frameFront src ++ (put32 clientid.length ++ (clientid ++ [ver])) := by
  simp only [encodeCommonMqttMsg, frameFront, List.append_assoc]

theorem length_body_encode (src : Msg) (clientid : Bytes) (ver : ProtoVer) :
    (encodeCommonMqttMsg src clientid ver).body.length =
      13 + src.header.length + src.body.length + clientid.length := by
  rw [body_encode, List.length_append, length_frameFront, List.length_append, length_put32,
    List.length_append, List.length_singleton]
  omega

variable {src : Msg} {clientid : Bytes} {ver : ProtoVer}

theorem read_encode (hh : src.header.length < 4294967296) (hb : src.body.length < 4294967296) :
    FrameLens.read (encodeCommonMqttMsg src clientid ver).body =
      ⟨src.header.length, src.body.length, clientid.length % 4294967296⟩ := by
  have hheader : get32 (encodeCommonMqttMsg src clientid ver).body 0 = src.header.length :=
    (get32_put32_append src.header.length _).trans (Nat.mod_eq_of_lt hh)
  have hbody : get32 (encodeCommonMqttMsg src clientid ver).body (4 + src.header.length) =
      src.body.length := by
    rw [← Nat.mod_eq_of_lt hb]
    apply @get32_at _ (put32 src.header.length ++ src.header)
      (src.body ++ (put32 clientid.length ++ (clientid ++ [ver])))
    · simp only [encodeCommonMqttMsg, List.append_assoc]
    · rw [List.length_append, length_put32]
  have hclient : get32 (encodeCommonMqttMsg src clientid ver).body
      (8 + src.header.length + src.body.length) = clientid.length % 4294967296 :=
    get32_at (body_encode src clientid ver) (length_frameFront src).symm
  simp only [FrameLens.read, hheader, hbody, hclient]

theorem slice_header (src : Msg) (clientid : Bytes) (ver : ProtoVer) :
    slice (encodeCommonMqttMsg src clientid ver).body 4 src.header.length = src.header := by
  apply @slice_at _ (put32 src.header.length) _
    (put32 src.body.length ++ (src.body ++ (put32 clientid.length ++ (clientid ++ [ver]))))
  · rfl
  · rfl
  · rfl

theorem slice_body (src : Msg) (clientid : Bytes) (ver : ProtoVer) :
    slice (encodeCommonMqttMsg src clientid ver).body (8 + src.header.length) src.body.length =
      src.body := by
  apply @slice_at _ (put32 src.header.length ++ (src.header ++ put32 src.body.length)) _
    (put32 clientid.length ++ (clientid ++ [ver]))
  · simp only [encodeCommonMqttMsg, List.append_assoc]
  · simp only [List.length_append, length_put32]
    omega
  · rfl

theorem drop_front (src : Msg) (clientid : Bytes) (ver : ProtoVer) :
    (encodeCommonMqttMsg src clientid ver).body.drop
      (12 + src.header.length + src.body.length) = clientid ++ [ver] := by
  have hlen : 12 + src.header.length + src.body.length =
      (frameFront src ++ put32 clientid.length).length := by
    rw [List.length_append, length_frameFront, length_put32]
    omega
  rw [body_encode, ← List.append_assoc, hlen, List.drop_left]

/-- What is decoded from an encoded message: only the last part depends on the width of the
length. -/
theorem decode_encode (hh : src.header.length < 4294967296) (hb : src.body.length < 4294967296) :
    let m := decodeCommonMqttMsg (encodeCommonMqttMsg src clientid ver)
    m.header = src.header ∧ m.body = src.body ∧
      m.connParam = some (createCparam (cstr ((clientid ++ [ver]).take
        (clientid.length % 4294967296))) (byteAt (clientid ++ [ver])
          (clientid.length % 4294967296))) := by
  have hread := @read_encode src clientid ver hh hb
  simp only [FrameLens.read, FrameLens.mk.injEq] at hread
  obtain ⟨h₁, h₂, h₃⟩ := hread
  rw [h₁] at h₂ h₃
  rw [h₂] at h₃
  have hver (i : ℕ) : byteAt (encodeCommonMqttMsg src clientid ver).body
      (12 + src.header.length + src.body.length + i) = byteAt (clientid ++ [ver]) i := by
    rw [← drop_front src clientid ver]
    simp only [byteAt, List.getD_eq_getElem?_getD, List.getElem?_drop]
  simp only [decodeCommonMqttMsg, h₁, h₂, h₃, hver]
  refine ⟨slice_header src clientid ver, slice_body src clientid ver, ?_⟩
  rw [slice, drop_front]

/-- Spans that follow each other without a gap cover what lies before the end of the last. -/
theorem spans_cover (l : FrameLens) (i : ℕ) :
    (∃ span ∈ l.spans, span.1 ≤ i ∧ i < span.1 + span.2) ↔
      i < 13 + l.headerLen + l.bodyLen + l.clientidSz := by
  simp only [FrameLens.spans, List.mem_cons, List.not_mem_nil, or_false, exists_eq_or_imp,
    exists_eq_left]
  omega

/-- A client identifier that comes back is no longer than the length says, and its length is not the
one for which the buffer wraps around to nothing. -/
theorem clientid_fits_of_roundTrip (hh : src.header.length < 4294967296)
    (hb : src.body.length < 4294967296) {m : Msg}
    (hm : decodeFrame (encodeCommonMqttMsg src clientid ver) = some m)
    (htrip : FrameRoundTrip src clientid ver m) : clientid.length + 1 < 4294967296 := by
  have hparam := (@decode_encode src clientid ver hh hb).2.2
  simp only [decodeFrame, read_encode hh hb, FrameLens.clientidAlloc] at hm
  split_ifs at hm with hfits
  obtain rfl := Option.some.inj hm
  have hclientid := htrip.sameClient
  rw [hparam] at hclientid
  have hlen := congrArg List.length (Option.some.inj hclientid)
  have hle := (List.takeWhile_prefix (fun c : UInt8 => decide (c ≠ 0))
    (l := (clientid ++ [ver]).take (clientid.length % 4294967296))).length_le
  have htake := List.length_take_le (clientid.length % 4294967296) (clientid ++ [ver])
  simp only [cstr] at hlen
  omega

theorem roundTrip_of_clientid_fits (hh : src.header.length < 4294967296)
    (hb : src.body.length < 4294967296) (hclient : (0 : UInt8) ∉ clientid)
    (hlen : clientid.length + 1 < 4294967296) :
    decodeFrame (encodeCommonMqttMsg src clientid ver) =
        some (decodeCommonMqttMsg (encodeCommonMqttMsg src clientid ver)) ∧
      FrameRoundTrip src clientid ver
        (decodeCommonMqttMsg (encodeCommonMqttMsg src clientid ver)) := by
  have hread := @read_encode src clientid ver hh hb
  obtain ⟨hheader, hbody, hparam⟩ := @decode_encode src clientid ver hh hb
  have hmod : clientid.length % 4294967296 = clientid.length := Nat.mod_eq_of_lt (by omega)
  rw [hmod, List.take_left, cstr_of_not_mem hclient, byteAt, List.getD_eq_getElem?_getD,
    List.getElem?_append_right le_rfl, Nat.sub_self] at hparam
  constructor
  · rw [decodeFrame, hread, FrameLens.clientidAlloc, hmod, if_pos]
    rw [Nat.mod_eq_of_lt hlen]
    exact Nat.lt_succ_self _
  · refine ⟨hheader, hbody, ?_, ?_, ?_⟩
    · rw [hparam]
      rfl
    · rw [hparam]
      rfl
    · intro i
      rw [hread, spans_cover, length_body_encode, hmod]

/-- A frame is decoded to what was encoded exactly if the length of the client identifier and the
size of the buffer for it are `uint32_t` values. -/
theorem frame_roundTrip_iff (src : Msg) (clientid : Bytes) (ver : ProtoVer)
    (hh : src.header.length < 4294967296) (hb : src.body.length < 4294967296)
    (hclient : (0 : UInt8) ∉ clientid) :
    (∃ m, decodeFrame (encodeCommonMqttMsg src clientid ver) = some m ∧
        FrameRoundTrip src clientid ver m) ↔
      clientid.length + 1 < 4294967296 := by
  constructor
  · rintro ⟨m, hm, htrip⟩
    exact clientid_fits_of_roundTrip hh hb hm htrip
  · intro hlen
    exact ⟨_, roundTrip_of_clientid_fits hh hb hclient hlen⟩

/-- A publication of client `c` comes back from its frame. -/
theorem frame_roundTrip_publish :
    ∃ m, decodeFrame (encodeCommonMqttMsg
        { Msg.alloc with header := [0x30, 3], body := [0, 1, 0x74] } (ascii "c")
        ProtoVer.v311) = some m ∧
      FrameRoundTrip { Msg.alloc with header := [0x30, 3], body := [0, 1, 0x74] } (ascii "c")
        ProtoVer.v311 m :=
  (frame_roundTrip_iff _ (ascii "c") ProtoVer.v311 (by decide) (by decide) (by decide)).mpr
    (by decide)

/-- Four gigabytes of client identifier have length zero in the frame: the decoded client has an
empty identifier, and the version is a byte of the one that was sent. -/
theorem frame_truncates_clientid :
    let src := { Msg.alloc with header := [0x30, 3], body := [0, 1, 0x74] }
    let clientid := List.replicate 4294967296 (0x61 : UInt8)
    (decodeCommonMqttMsg (encodeCommonMqttMsg src clientid ProtoVer.v311)).connParam =
        some (createCparam [] 0x61) ∧
      ¬ ∃ m, decodeFrame (encodeCommonMqttMsg src clientid ProtoVer.v311) = some m ∧
        FrameRoundTrip src clientid ProtoVer.v311 m := by
  intro src clientid
  have hlen : clientid.length = 4294967296 := List.length_replicate
  have hcons : clientid = 0x61 :: List.replicate 4294967295 0x61 := List.replicate_succ
  have hparam := (@decode_encode src clientid ProtoVer.v311 (by decide) (by decide)).2.2
  rw [hlen, Nat.mod_self, List.take_zero, hcons, List.cons_append] at hparam
  rw [← hcons] at hparam
  refine ⟨hparam, ?_⟩
  rintro ⟨m, hm, htrip⟩
  have hfits := clientid_fits_of_roundTrip (by decide) (by decide) hm htrip
  rw [hlen] at hfits
  exact absurd hfits (by decide)

end NanoMQ
