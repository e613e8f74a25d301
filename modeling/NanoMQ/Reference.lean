import NanoMQ.Nng
import NanoMQ.Wildcard
import Mathlib.Tactic.SplitIfs

/-!
# A runnable NanoNNG

Concrete functions for the interface, in the format of the MQTT standard: variable byte integers,
length-prefixed ASCII strings, property blocks that are empty or hold one Topic Alias, and wildcard
matching of topics. They satisfy every law stated for the interface, so the theorems that assume
those laws have an instance that runs.
-/

namespace NanoMQ

open ByteBuffer

namespace Reference

def putVarInteger (n : ℕ) : Bytes :=
  if n < 128 then [UInt8.ofNat n]
  else if n < 16384 then [UInt8.ofNat (n % 128 + 128), UInt8.ofNat (n / 128)]
  else if n < 2097152 then
    [UInt8.ofNat (n % 128 + 128), UInt8.ofNat (n / 128 % 128 + 128), UInt8.ofNat (n / 16384)]
  else
    [UInt8.ofNat (n % 128 + 128), UInt8.ofNat (n / 128 % 128 + 128),
      UInt8.ofNat (n / 16384 % 128 + 128), UInt8.ofNat (n / 2097152)]

def readVarInteger : Bytes → ℕ → ℕ → ℕ → ℕ × ℕ
  | [], _, value, used => (value, used + 1)
  | b :: bs, weight, value, used =>
      if b.toNat < 128 then (value + b.toNat * weight, used + 1)
      else readVarInteger bs (weight * 128) (value + (b.toNat - 128) * weight) (used + 1)

def mqttGetRemainingLength (header : Bytes) : ℕ × ℕ := readVarInteger (header.drop 1) 1 0 0

def utf8Check (s : Bytes) : Bool := s.all (fun b => 0 < b.toNat && b.toNat < 128)

def encodeProperties : Option PropertyList → CmdType → Option Bytes
  | none, _ => some [0]
  | some [⟨0x23, .u16 a⟩], _ => some ([3, 0x23] ++ put16 a.toNat)
  | _, _ => none

def decodeProperties (m : Msg) (pos : ℕ) : DecodedProps :=
  if byteAt m.body pos = 3 ∧ byteAt m.body (pos + 1) = 0x23 then
    ⟨some [⟨0x23, .u16 (UInt16.ofNat (get16 m.body (pos + 2)))⟩], 3, pos + 4⟩
  else ⟨none, 0, pos + 1⟩

def topicFilter (origin : Bytes) (input : Option Bytes) : Bool :=
  match input with
  | none => false
  | some t => Wildcard.Matches 0x2f 0x2b 0x23 origin t

/-- A PUBLISH of the given version, with packet identifier 1 where the quality asks for one. -/
def encodePublish (ver : ProtoVer) (qos : UInt8) (retain : Bool) (payload topic : Bytes) : Msg :=
  let body := put16 topic.length ++ topic ++ (if qos = 0 then [] else [0, 1]) ++
    (if ver = ProtoVer.v5 then [0] else []) ++ payload
  { Msg.alloc with
    header := (FixedHeader.toByte ⟨retain, Fin.ofNat 4 qos.toNat, false, PacketType.publish, 0⟩) ::
      putVarInteger body.length
    body := body, cmdType := .publish }

end Reference

def Nng.reference : Nng where
  utf8Check := Reference.utf8Check
  copynUtf8Str src pos limit :=
    if ((2 + get16 src pos : ℕ) : ℤ) ≤ limit ∧
        Reference.utf8Check (slice src (pos + 2) (get16 src pos)) = true then
      ⟨if get16 src pos = 0 then none else some (slice src (pos + 2) (get16 src pos)),
        get16 src pos, pos + 2 + get16 src pos⟩
    else ⟨none, -1, pos⟩
  getUtf8Str src pos limit :=
    if pos + 2 + get16 src pos ≤ limit ∧
        Reference.utf8Check (slice src (pos + 2) (get16 src pos)) = true then
      ⟨get16 src pos,
        if get16 src pos = 0 then none else some (slice src (pos + 2) (get16 src pos)),
        pos + 2 + get16 src pos⟩
    else ⟨-1, none, pos⟩
  payloadPtr m :=
    some (if protoverOf m.connParam = ProtoVer.v5 then (Reference.decodeProperties m 2).pos else 2)
  decodeProperties := Reference.decodeProperties
  encodeProperties := Reference.encodeProperties
  checkProperties _ _ := ReasonCode.success
  mqttGetRemainingLength := Reference.mqttGetRemainingLength
  putVarInteger := Reference.putVarInteger
  mqttMsgDecode _ := true
  mqttMsgEncodeTopic m _ _ := m
  topicFilter := Reference.topicFilter
  generateRepubTopic _ topic _ := topic
  dbtreeFindClients db topic :=
    (db.filter (fun e => Reference.topicFilter e.1 (some topic))).map Prod.snd
  dbtreeFindSharedClients _ _ := []
  dbtreeFindRetain ret filter := (ret filter).toList
  qosDbFindRetain ret filter := ((ret filter).map Prod.fst).toList
  publishProperty m := (Reference.decodeProperties m (2 + get16 m.body 0)).list
  nanoMsgNotify _ _ _ _ :=
    Reference.encodePublish ProtoVer.v311 0 false [] (ascii "$SYS/brokers/connected")
  nanoDismsgComposer code := { Msg.alloc with header := [0xe0, 2], body := [code, 0] }
  nanoEncodePublishMsg ver qos retain payload _ topic :=
    some (Reference.encodePublish ver qos retain payload topic)
  nngSub0MsgAdapter m := some m
  authSubError := ReasonCode.notAuthorized

/-- Every optional feature off, and the documented default of `acl_nomatch`. -/
def Conf.bare : Conf where
  build := ⟨false, false, false, false⟩
  aclEnable := false
  aclRules := []
  aclNomatch := .allow
  aclDenyAction := .ignore
  authHttpEnable := false
  maxTopicAlias := 0
  sqliteEnable := false
  bridgeMode := false
  bridgeNodes := []
  awsNodes := []
  nngPubEnable := false
  nngPubNodes := []
  webHookEnable := false
  webHookRules := []
  ruleEngOption := ruleEngOff

def ConnParam.bare : ConnParam :=
  ⟨none, none, none, none, ProtoVer.v311, false, none, none, 0, false, none⟩

def simplePublish (topic : Bytes) : Msg :=
  { Msg.alloc with
    header := [0x30, UInt8.ofNat (topic.length + 2)], body := put16 topic.length ++ topic
    cmdType := .publish, connParam := some ConnParam.bare }

namespace Reference

theorem lawfulStr : Nng.reference.LawfulStr where
  utf8_nil := rfl
  utf8_no_nul s hs hmem := by
    have h := List.all_eq_true.mp hs 0 hmem
    simp at h
  copyn_valid src pos limit h := if_pos h
  copyn_invalid src pos limit h := by
    have hr : Nng.reference.copynUtf8Str src pos limit = ⟨none, -1, pos⟩ := if_neg h
    rw [hr]
    exact ⟨rfl, rfl⟩

theorem getUtf8Str_valid {src : Bytes} {pos limit : ℕ} (h : Nng.reference.IsText src pos limit) :
    Nng.reference.getUtf8Str src pos limit =
      ⟨get16 src pos,
        if get16 src pos = 0 then none else some (slice src (pos + 2) (get16 src pos)),
        pos + 2 + get16 src pos⟩ := if_pos h

theorem lawfulText : Nng.reference.LawfulText where
  len_valid src pos limit h := by rw [getUtf8Str_valid h]
  pos_valid src pos limit h := by rw [getUtf8Str_valid h]
  dest_valid src pos limit h hz := by rw [getUtf8Str_valid h, if_neg hz]
  invalid src pos limit h := by
    have hr : Nng.reference.getUtf8Str src pos limit = ⟨-1, none, pos⟩ := if_neg h
    rw [hr]

theorem propsAdvance : Nng.reference.PropsAdvance := by
  intro m pos
  change pos ≤ (decodeProperties m pos).pos
  unfold decodeProperties
  split_ifs <;> exact Nat.le_add_right _ _

theorem decodeProperties_alias (m : Msg) (pre post : Bytes) (a : UInt16)
    (hm : m.body = pre ++ ([3, 0x23] ++ put16 a.toNat ++ post)) :
    decodeProperties m pre.length = ⟨some [⟨0x23, .u16 a⟩], 3, pre.length + 4⟩ := by
  have h₀ : byteAt m.body pre.length = 3 := by
    have h := byteAt_append_right pre ([3, 0x23] ++ put16 a.toNat ++ post) 0
    rwa [← hm, Nat.add_zero] at h
  have h₁ : byteAt m.body (pre.length + 1) = 0x23 := by
    have h := byteAt_append_right pre ([3, 0x23] ++ put16 a.toNat ++ post) 1
    rwa [← hm] at h
  have h₂ : get16 m.body (pre.length + 2) = a.toNat := by
    rw [hm, get16_append_right]
    exact get16_append_put16 [3, 0x23] post a.toNat a.toNat_lt
  rw [decodeProperties, if_pos ⟨h₀, h₁⟩, h₂, UInt16.ofNat_toNat]

theorem propsInverse : Nng.reference.PropsInverse := by
  intro m props pre block post henc hm
  change (decodeProperties m pre.length).list = props ∧
    (decodeProperties m pre.length).pos = pre.length + block.length
  change encodeProperties props .publish = some block at henc
  unfold encodeProperties at henc
  split at henc
  · obtain rfl : [0] = block := Option.some.inj henc
    have h₀ : byteAt m.body pre.length = 0 := by
      have h := byteAt_append_right pre ([0] ++ post) 0
      rwa [← hm, Nat.add_zero] at h
    simp [decodeProperties, h₀]
  · obtain rfl := Option.some.inj henc
    rw [decodeProperties_alias m pre post _ hm]
    exact ⟨rfl, rfl⟩
  · cases henc

theorem propsEncodable : Nng.reference.PropsEncodable := by
  intro m pos _
  change ∃ block, encodeProperties (decodeProperties m pos).list .publish = some block
  unfold decodeProperties
  split_ifs
  · exact ⟨_, rfl⟩
  · exact ⟨_, rfl⟩

theorem readVarInteger_last {d : ℕ} (hd : d < 128) (bs : Bytes) (weight value used : ℕ) :
    readVarInteger (UInt8.ofNat d :: bs) weight value used = (value + d * weight, used + 1) := by
  have hn : (UInt8.ofNat d).toNat = d := by
    rw [UInt8.toNat_ofNat']
    omega
  rw [readVarInteger, hn, if_pos hd]

theorem readVarInteger_more {d : ℕ} (hd : d < 128) (bs : Bytes) (weight value used : ℕ) :
    readVarInteger (UInt8.ofNat (d + 128) :: bs) weight value used =
      readVarInteger bs (weight * 128) (value + d * weight) (used + 1) := by
  have hn : (UInt8.ofNat (d + 128)).toNat = d + 128 := by
    rw [UInt8.toNat_ofNat']
    omega
  rw [readVarInteger, hn, if_neg (by omega), Nat.add_sub_cancel]

theorem varintInverse : Nng.reference.VarintInverse := by
  intro b len hlen
  change (readVarInteger (putVarInteger len) 1 0 0).1 = len ∧
    (readVarInteger (putVarInteger len) 1 0 0).2 ≤ 4
  have hlow (n : ℕ) : n % 128 < 128 := Nat.mod_lt n (by decide)
  unfold putVarInteger
  split_ifs with h₁ h₂ h₃
  · rw [readVarInteger_last h₁]
    omega
  · rw [readVarInteger_more (hlow len), readVarInteger_last (by omega)]
    omega
  · rw [readVarInteger_more (hlow len), readVarInteger_more (hlow (len / 128)),
      readVarInteger_last (by omega)]
    omega
  · rw [readVarInteger_more (hlow len), readVarInteger_more (hlow (len / 128)),
      readVarInteger_more (hlow (len / 16384)), readVarInteger_last (by omega)]
    omega

theorem emptyBlock : Nng.reference.EmptyBlock := fun _ => rfl

theorem checksByKind : Nng.reference.ChecksByKind := fun _ _ _ _ _ => rfl

theorem getType_encodePublish (ver : ProtoVer) (qos : UInt8) (retain : Bool)
    (payload topic : Bytes) :
    (encodePublish ver qos retain payload topic).getType = PacketType.publish := by
  change (FixedHeader.ofByte (FixedHeader.toByte _)).packetType = _
  rw [FixedHeader.ofByte_toByte]

theorem composesPublish : Nng.reference.ComposesPublish := by
  intro ver qos retain payload props topic m hm
  obtain rfl := Option.some.inj hm
  exact getType_encodePublish ver qos retain payload topic

theorem notifiesPublish : Nng.reference.NotifiesPublish :=
  fun _ _ _ _ => getType_encodePublish _ _ _ _ _

theorem isTopicMatch : Wildcard.IsTopicMatch 0x2f 0x2b 0x23 0x24
    (fun f t => Nng.reference.topicFilter f (some t)) where
  sound _ _ h := h
  complete _ _ h _ := h

end Reference

end NanoMQ
