import NanoMQ.Conf

/-!
# The NanoNNG interface

The broker is linked against NanoNNG, whose sources are not part of this repository. `Nng` collects
the functions of it that the publish path calls. The structures below it name what the handlers
rely on: the string reader, the property codec, the variable byte integers and the composers of
whole messages. A theorem asks only for the parts it needs.
-/

namespace NanoMQ

open ByteBuffer

/-- What `copyn_utf8_str` leaves in its result, `*str_len` and `*pos`. -/
structure CopiedStr where
  dest : Option Bytes
  len : ℤ
  pos : ℕ
  deriving DecidableEq, Repr

structure DecodedProps where
  list : Option PropertyList
  len : ℕ
  pos : ℕ
  deriving DecidableEq, Repr

/-- What `get_utf8_str` returns and leaves in `*pos` and `*dest`, which it need not write. -/
structure GotStr where
  len : ℤ
  dest : Option Bytes
  pos : ℕ
  deriving DecidableEq, Repr

structure Nng where
  utf8Check : Bytes → Bool
  copynUtf8Str : Bytes → ℕ → ℤ → CopiedStr
  getUtf8Str : Bytes → ℕ → ℕ → GotStr
  /-- `nng_msg_payload_ptr`, as the offset into the body that the protocol layer has set. -/
  payloadPtr : Msg → Option ℕ
  decodeProperties : Msg → ℕ → DecodedProps
  encodeProperties : Option PropertyList → CmdType → Option Bytes
  checkProperties : Option PropertyList → Msg → ReasonCode
  mqttGetRemainingLength : Bytes → ℕ × ℕ
  putVarInteger : ℕ → Bytes
  /-- Whether `nng_mqtt_msg_decode` returns zero. -/
  mqttMsgDecode : Msg → Bool
  /-- The message after `nng_mqtt_msg_set_publish_topic` and the SDK's encoder. -/
  mqttMsgEncodeTopic : Msg → Bytes → ProtoVer → Msg
  /-- `topic_filter`; the second argument may be `NULL`. -/
  topicFilter : Bytes → Option Bytes → Bool
  generateRepubTopic : Topics → Option Bytes → Bool → Option Bytes
  dbtreeFindClients : List (Bytes × ℕ) → Bytes → List ℕ
  dbtreeFindSharedClients : List (Bytes × ℕ) → Bytes → List ℕ
  dbtreeFindRetain : (Bytes → Option Msg) → Bytes → List Msg
  /-- `nng_mqtt_qos_db_find_retain`. -/
  qosDbFindRetain : (Bytes → Option (Msg × ProtoVer)) → Bytes → List Msg
  /-- `nng_mqtt_msg_get_publish_property`. -/
  publishProperty : Msg → Option PropertyList
  nanoMsgNotify : Option ConnParam → UInt8 → UInt8 → Bool → Msg
  nanoDismsgComposer : ReasonCode → Msg
  nanoEncodePublishMsg : ProtoVer → UInt8 → Bool → Bytes → Option PropertyList → Bytes → Option Msg
  nngSub0MsgAdapter : Msg → Option Msg
  /-- `NMQ_AUTH_SUB_ERROR`. -/
  authSubError : ReasonCode

/-- The two length bytes at `pos` and the text behind them take up at most `limit` bytes, and the
text is valid. -/
def Nng.IsStr (n : Nng) (src : Bytes) (pos : ℕ) (limit : ℤ) : Prop :=
  ((2 + get16 src pos : ℕ) : ℤ) ≤ limit ∧
    n.utf8Check (slice src (pos + 2) (get16 src pos)) = true

instance (n : Nng) (src : Bytes) (pos : ℕ) (limit : ℤ) : Decidable (n.IsStr src pos limit) :=
  inferInstanceAs (Decidable (_ ∧ _))

/-- `copyn_utf8_str` yields the string and its length when it is valid within the limit, and `NULL`
with length `-1` when it is not. An MQTT string holds no zero byte, and an empty one is not
allocated. -/
structure Nng.LawfulStr (n : Nng) : Prop where
  utf8_nil : n.utf8Check [] = true
  utf8_no_nul : ∀ s, n.utf8Check s = true → (0 : UInt8) ∉ s
  copyn_valid : ∀ src pos limit, n.IsStr src pos limit →
    n.copynUtf8Str src pos limit =
      ⟨if get16 src pos = 0 then none else some (slice src (pos + 2) (get16 src pos)),
        get16 src pos, pos + 2 + get16 src pos⟩
  copyn_invalid : ∀ src pos limit, ¬ n.IsStr src pos limit →
    (n.copynUtf8Str src pos limit).dest = none ∧ (n.copynUtf8Str src pos limit).len = -1

def Nng.IsText (n : Nng) (src : Bytes) (pos limit : ℕ) : Prop :=
  pos + 2 + get16 src pos ≤ limit ∧ n.utf8Check (slice src (pos + 2) (get16 src pos)) = true

instance (n : Nng) (src : Bytes) (pos limit : ℕ) : Decidable (n.IsText src pos limit) :=
  inferInstanceAs (Decidable (_ ∧ _))

/-- `get_utf8_str` points at the text and returns its length when it is valid within the limit, and
returns `-1` when it is not. For an empty text it may leave the pointer alone. -/
structure Nng.LawfulText (n : Nng) : Prop where
  len_valid : ∀ src pos limit, n.IsText src pos limit →
    (n.getUtf8Str src pos limit).len = get16 src pos
  pos_valid : ∀ src pos limit, n.IsText src pos limit →
    (n.getUtf8Str src pos limit).pos = pos + 2 + get16 src pos
  dest_valid : ∀ src pos limit, n.IsText src pos limit → get16 src pos ≠ 0 →
    (n.getUtf8Str src pos limit).dest = some (slice src (pos + 2) (get16 src pos))
  invalid : ∀ src pos limit, ¬ n.IsText src pos limit → (n.getUtf8Str src pos limit).len = -1

/-- `decode_properties` moves forward by the encoded size of what it reads. -/
def Nng.PropsAdvance (n : Nng) : Prop := ∀ m pos, pos ≤ (n.decodeProperties m pos).pos

/-- The property codec is inverse on what it encodes. -/
def Nng.PropsInverse (n : Nng) : Prop :=
  ∀ (m : Msg) (props : Option PropertyList) (pre block post : Bytes),
    n.encodeProperties props .publish = some block → m.body = pre ++ (block ++ post) →
    (n.decodeProperties m pre.length).list = props ∧
      (n.decodeProperties m pre.length).pos = pre.length + block.length

/-- An absent list of properties is encoded as an empty block. -/
def Nng.EmptyBlock (n : Nng) : Prop := ∀ c, n.encodeProperties none c = some [0]

/-- A list that was decoded and passes its check can be encoded. -/
def Nng.PropsEncodable (n : Nng) : Prop :=
  ∀ (m : Msg) (pos : ℕ),
    (∀ l, (n.decodeProperties m pos).list = some l → n.checkProperties (some l) m = 0) →
    ∃ block, n.encodeProperties (n.decodeProperties m pos).list .publish = some block

/-- What `check_properties` says of a list depends on the kind of the message only. -/
def Nng.ChecksByKind (n : Nng) : Prop :=
  ∀ (l : Option PropertyList) (m m' : Msg), m.getType = m'.getType → m.cmdType = m'.cmdType →
    n.checkProperties l m = n.checkProperties l m'

/-- The variable byte integers are inverse up to the largest remaining length. -/
def Nng.VarintInverse (n : Nng) : Prop :=
  ∀ (b : UInt8) (len : ℕ), len ≤ 268435455 →
    (n.mqttGetRemainingLength (b :: n.putVarInteger len)).1 = len ∧
      (n.mqttGetRemainingLength (b :: n.putVarInteger len)).2 ≤ 4

/-- `nano_encode_publish_msg` composes a PUBLISH. -/
def Nng.ComposesPublish (n : Nng) : Prop :=
  ∀ ver qos retain payload props topic m,
    n.nanoEncodePublishMsg ver qos retain payload props topic = some m →
    m.getType = PacketType.publish

/-- `nano_msg_notify` composes a PUBLISH. -/
def Nng.NotifiesPublish (n : Nng) : Prop :=
  ∀ cparam code kind flag, (n.nanoMsgNotify cparam code kind flag).getType = PacketType.publish

end NanoMQ
