import NanoMQ.Delivery

/-!
# The retained messages in memory

A PUBLISH with the retain flag that gets past the access control is encoded anew, under the topic it
is processed under, and kept for this topic; one without a payload deletes what is kept. So after
any sequence of publications each topic has the message of the last of these, if that had a payload.
-/

namespace NanoMQ

open ByteBuffer BindingHistory

def Arrival.packetUnder (nng : Nng) (x : Arrival) (topic : Bytes) : PubPacket :=
  { (x.publishWork.decoding nng x.version).packet with
    topicBody := some topic, topicLen := topic.length }

def Arrival.Retain (nng : Nng) (x : Arrival) : Prop :=
  (x.publishWork.decoding nng x.version).packet.fixedHeader.retain = true

def Arrival.HasPayload (nng : Nng) (x : Arrival) : Prop :=
  (x.publishWork.decoding nng x.version).packet.payloadLen > 0

instance (nng : Nng) (x : Arrival) : Decidable (x.Retain nng) :=
  inferInstanceAs (Decidable (_ = true))

instance (nng : Nng) (x : Arrival) : Decidable (x.HasPayload nng) :=
  inferInstanceAs (Decidable (_ > 0))

/-- A retain-flagged PUBLISH, met in a state of the tables, is accepted under the topic: it gets
past the alias step and the access control. -/
structure RetainsUnder (nng : Nng) (conf : Conf) (q : Store × Arrival) (topic : Bytes) :
    Prop where
  processed : ProcessedUnder nng conf q.1 q.2 topic
  allowed : aclDenies nng conf q.2.msg.connParam topic = false
  retain : q.2.Retain nng

def Arrival.retainDest (x : Arrival) : Msg :=
  { Msg.alloc with
    timestamp := x.env.pub.clock, cmdType := (x.msg.stamp x.version).cmdType }

def Arrival.retainEncoded (nng : Nng) (x : Arrival) (topic : Bytes) : Encoded :=
  encodePubMessage nng x.retainDest (x.packetUnder nng topic) PacketType.publish

/-- The decoder of NanoSDK accepts what `encode_pub_message` has produced, which is a packet of a
size that MQTT allows. -/
structure SdkAccepts (nng : Nng) (x : Arrival) (topic : Bytes) : Prop where
  decoded : nng.mqttMsgDecode (x.retainEncoded nng topic).msg = true
  fits : (x.retainEncoded nng topic).msg.body.length ≤ 268435455

structure Keeps (nng : Nng) (x : Arrival) (topic : Bytes) (m : Msg) : Prop where
  code : (decodePubMessage nng m x.version PubPacket.zalloc).code = ReasonCode.success
  same : SamePublish (x.packetUnder nng topic)
    (decodePubMessage nng m x.version PubPacket.zalloc).packet

structure StoredAs (nng : Nng) (x : Arrival) (topic : Bytes) (entry : Option Msg) : Prop where
  empty : ¬ x.HasPayload nng → entry = none
  kept : x.HasPayload nng → ∃ m, entry = some m ∧ Keeps nng x topic m

structure IsPublication (x : Arrival) : Prop where
  kind : x.msg.cmdType = .publish
  version : x.version = ProtoVer.v5 ∨ x.version = ProtoVer.v311 ∨ x.version = ProtoVer.v31

section Retain

variable {nng : Nng} {conf : Conf} {env : PubEnv} {topic : Bytes} {s : PubState}

theorem handlePubRetain_of_not_retain (h : s.packet.fixedHeader.retain = false) :
    handlePubRetain nng conf env topic s = s := by
  unfold handlePubRetain handlePubRetainSqlite
  rw [h, if_neg Bool.false_ne_true, if_neg Bool.false_ne_true, ite_self]

variable (hsql : (conf.build.sqlite && conf.sqliteEnable) = false)
  (hret : s.packet.fixedHeader.retain = true)

include hsql hret

theorem store_handlePubRetain_of_empty (hpay : ¬ s.packet.payloadLen > 0) :
    (handlePubRetain nng conf env topic s).store = s.store.setRet topic none := by
  unfold handlePubRetain
  rw [hsql, hret, if_neg Bool.false_ne_true, if_pos rfl, if_neg hpay]

theorem store_handlePubRetain_of_payload (hpay : s.packet.payloadLen > 0) {m : Msg}
    (hm : (retainMsg nng env s).1 = some m) :
    (handlePubRetain nng conf env topic s).store = s.store.setRet topic (some m) := by
  unfold handlePubRetain
  rw [hsql, hret, if_neg Bool.false_ne_true, if_pos rfl, if_pos hpay]
  rcases hr : retainMsg nng env s with ⟨ret, pkt⟩
  rw [hr] at hm
  obtain rfl : ret = some m := hm
  rfl

end Retain

section Kept

variable {nng : Nng} {x : Arrival} {topic : Bytes}

theorem retainMsg_eq (hx : IsPublication x) {s : PubState}
    (hpid : s.work.pid = x.msg.pipe) (hver : s.work.protoVer = x.version)
    (hpkt : s.packet = x.packetUnder nng topic) (hsdk : SdkAccepts nng x topic) :
    (retainMsg nng x.env.pub s).1 =
      some { (x.retainEncoded nng topic).msg with
        pipe := x.msg.pipe, publishProtoVersion := x.version } := by
  have hdest : x.retainDest = { Msg.alloc with
      timestamp := x.env.pub.clock
      cmdType := if x.version = ProtoVer.v5 then .publishV5 else .publish } := rfl
  have hdec := hsdk.decoded
  unfold Arrival.retainEncoded at hdec ⊢
  rw [hdest] at hdec ⊢
  unfold retainMsg
  dsimp only
  rw [hpid, hver, hpkt]
  by_cases h5 : x.version = ProtoVer.v5
  · rw [if_pos h5, if_pos h5]
  · rw [if_neg h5] at hdec
    rw [if_neg h5, if_neg h5, if_pos (hx.version.resolve_left h5)]
    dsimp only
    rw [if_pos hdec]

theorem Arrival.packetUnder_eq
    (htype : (x.msg.stamp x.version).getType = PacketType.publish)
    (hacc : Accepts nng (x.msg.stamp x.version) x.version) :
    x.packetUnder nng topic = { acceptedPacket nng (x.msg.stamp x.version) x.version with
      topicBody := some topic, topicLen := topic.length } := by
  have hdec : x.publishWork.decoding nng x.version = _ := hacc.decodePubMessage_eq htype
  unfold Arrival.packetUnder
  rw [hdec]

theorem Arrival.encodedBlock_packetUnder (hencode : nng.PropsEncodable)
    (htype : (x.msg.stamp x.version).getType = PacketType.publish)
    (hacc : Accepts nng (x.msg.stamp x.version) x.version) :
    ∃ block, encodedBlock nng x.retainDest.cmdType.protoVer (x.packetUnder nng topic) =
      some block := by
  have hv : x.retainDest.cmdType.protoVer = ProtoVer.v5 ↔ x.version = ProtoVer.v5 :=
    protoVer_stamp x.msg x.version
  unfold encodedBlock
  by_cases h5 : x.version = ProtoVer.v5
  · have hok := hacc.block
    rw [BlockOk, if_pos h5] at hok
    have hlist : (x.packetUnder nng topic).properties = (nng.decodeProperties
        (x.msg.stamp x.version) (identEnd nng (x.msg.stamp x.version))).list := by
      rw [Arrival.packetUnder_eq htype hacc]
      exact if_pos h5
    rw [if_pos (hv.mpr h5), hlist]
    exact hencode _ _ hok.1
  · rw [if_neg (mt hv.mp h5)]
    exact ⟨[], rfl⟩

theorem keeps_retainEncoded (hlaw : nng.LawfulStr) (hprops : nng.PropsInverse)
    (hencode : nng.PropsEncodable) (hvar : nng.VarintInverse) (hkind : nng.ChecksByKind)
    (htype : (x.msg.stamp x.version).getType = PacketType.publish)
    (hacc : Accepts nng (x.msg.stamp x.version) x.version) (htopic : TopicOk nng topic)
    (hsdk : SdkAccepts nng x topic) (pipe : ℕ) (ver : ProtoVer) :
    Keeps nng x topic { (x.retainEncoded nng topic).msg with
      pipe := pipe, publishProtoVersion := ver } := by
  have hpkt : x.packetUnder nng topic = _ := Arrival.packetUnder_eq htype hacc
  have hsame : SameParts { acceptedPacket nng (x.msg.stamp x.version) x.version with
      topicBody := some topic, topicLen := topic.length } (x.packetUnder nng topic) := by
    rw [hpkt]
    exact SameParts.refl _
  have hmark := encodePubMessage_mark nng x.retainDest (x.packetUnder nng topic) pipe ver
  have hdecode := decode_reencoded hlaw hprops hvar hkind htype hacc htopic hsame
    { x.retainDest with pipe := pipe, publishProtoVersion := ver } rfl
    (ok_encodePubMessage_iff.mpr (Arrival.encodedBlock_packetUnder hencode htype hacc))
    (by rw [hmark]; exact hsdk.fits)
  rw [hmark, ← hpkt] at hdecode
  exact ⟨hdecode.2.1, hdecode.2.2⟩

end Kept

section Step

variable (nng : Nng) (conf : Conf) (h : SubHandlers)

def Arrival.next (st : Store) (x : Arrival) : Store := (x.run nng conf h st).store

variable {nng conf h} {st : Store} {x : Arrival} {topic : Bytes}

theorem Arrival.next_eq (hx : IsPublication x) :
    x.next nng conf h st =
      (NanoMQ.handlePub nng conf x.env.pub x.version false st x.publishWork).2.store :=
  Arrival.store_run_publish hx.kind

theorem runEvents_arrivals (xs : List Arrival) :
    runEvents nng conf h Store.empty (xs.map .arrival) =
      xs.foldl (Arrival.next nng conf h) Store.empty :=
  List.foldl_map

theorem dbRet_of_retained {st st' : Store} (h : st'.retained = st.retained) :
    st'.dbRet = st.dbRet :=
  congrArg Prod.fst h

theorem dbRet_handlePubRetain_ne {env : PubEnv} {s : PubState} {T : Bytes} (hne : T ≠ topic) :
    (handlePubRetain nng conf env topic s).store.dbRet T = s.store.dbRet T := by
  unfold handlePubRetain handlePubRetainSqlite
  rcases retainMsg nng env s with ⟨_ | m, pkt⟩ <;> split_ifs <;> first | rfl | exact if_neg hne

theorem Arrival.dbRet_next_cases (nng : Nng) (conf : Conf) (h : SubHandlers) (st : Store)
    (hx : IsPublication x) :
    ((∀ T, ¬ (ProcessedUnder nng conf st x T ∧
        aclDenies nng conf x.msg.connParam T = false)) ∧ (x.next nng conf h st).dbRet = st.dbRet) ∨
      ∃ t, resolve nng conf x.env.pub x.version false (pubStart st x.publishWork) = (none, t) ∧
        aclDenies nng conf x.msg.connParam t.topic = false ∧
        x.next nng conf h st =
          (handlePubRetain nng conf x.env.pub t.topic (routed nng t)).store := by
  rw [Arrival.next_eq hx]
  have hcp : ∀ {o t}, resolve nng conf x.env.pub x.version false (pubStart st x.publishWork) =
      (o, t) → t.work.cparam = x.msg.connParam := by
    intro o t hres
    rw [(frame_of_resolve hres).work]
    rfl
  rcases handlePub_cases nng conf x.env.pub x.version false st x.publishWork with
    ⟨c, t, hres, heq⟩ | ⟨t, hres, hacl, heq⟩ | ⟨t, hres, hacl, heq⟩
  · rw [heq]
    refine Or.inl ⟨?_, dbRet_of_retained (frame_of_resolve hres).retained⟩
    rintro T ⟨⟨t', hres', -⟩, -⟩
    rw [hres] at hres'
    cases hres'
  · rw [heq]
    refine Or.inl ⟨?_, dbRet_of_retained (frame_of_resolve hres).retained⟩
    rintro T ⟨⟨t', hres', rfl⟩, hallow⟩
    rw [hres] at hres'
    obtain rfl := (Prod.mk.inj hres').2
    rw [← hcp hres, hacl.2] at hallow
    cases hallow
  · rw [heq]
    refine Or.inr ⟨t, hres, ?_, rfl⟩
    rw [← hcp hres]
    exact Bool.eq_false_iff.mpr (fun hdeny => hacl ⟨rfl, hdeny⟩)

end Step

section Reached

variable {nng : Nng} (hlaw : nng.LawfulStr) {conf : Conf} {h : SubHandlers} {x : Arrival}
  {xs : List Arrival} {t : PubState}
  (hres : resolve nng conf x.env.pub x.version false
    (pubStart (xs.foldl (Arrival.next nng conf h) Store.empty) x.publishWork) = (none, t))

include hlaw hres

/-- The packet that is routed is the one that was decoded, under the topic it is processed under. -/
theorem packet_routed :
    (x.msg.stamp x.version).getType = PacketType.publish ∧
      Accepts nng (x.msg.stamp x.version) x.version ∧ TopicOk nng t.topic ∧
      (routed nng t).packet = x.packetUnder nng t.topic := by
  rw [← runEvents_arrivals] at hres
  obtain ⟨htype, hacc, htopic, hpkt⟩ := Arrival.resolved hlaw hres
  refine ⟨htype, hacc, htopic, ?_⟩
  rw [Arrival.packetUnder_eq htype hacc]
  exact hpkt

end Reached

section Entry

variable {nng : Nng} (hlaw : nng.LawfulStr) {conf : Conf} {h : SubHandlers} {x : Arrival}
  (hx : IsPublication x) (xs : List Arrival) {topic : Bytes}

include hlaw hx

/-- A PUBLISH that is not accepted under the topic, or has no retain flag, leaves its entry. -/
theorem dbRet_next_of_not_retains
    (hno : ¬ RetainsUnder nng conf (xs.foldl (Arrival.next nng conf h) Store.empty, x) topic) :
    (x.next nng conf h (xs.foldl (Arrival.next nng conf h) Store.empty)).dbRet topic =
      (xs.foldl (Arrival.next nng conf h) Store.empty).dbRet topic := by
  rcases Arrival.dbRet_next_cases nng conf h
    (xs.foldl (Arrival.next nng conf h) Store.empty) hx with
    ⟨-, heq⟩ | ⟨t, hres, hallow, heq⟩
  · rw [heq]
  · have hst : (routed nng t).store.dbRet = _ :=
      dbRet_of_retained (frame_of_resolve hres).retained
    rw [heq]
    by_cases hT : topic = t.topic
    · subst hT
      have hret : (x.packetUnder nng t.topic).fixedHeader.retain = false :=
        Bool.eq_false_iff.mpr (fun hr => hno ⟨⟨t, hres, rfl⟩, hallow, hr⟩)
      rw [handlePubRetain_of_not_retain (by rw [(packet_routed hlaw hres).2.2.2, hret]), hst]
      rfl
    · rw [dbRet_handlePubRetain_ne hT, hst]
      rfl

/-- One that is accepted with the flag determines it. -/
theorem storedAs_next (hprops : nng.PropsInverse) (hencode : nng.PropsEncodable)
    (hvar : nng.VarintInverse) (hkind : nng.ChecksByKind)
    (hsql : (conf.build.sqlite && conf.sqliteEnable) = false)
    (hw : RetainsUnder nng conf (xs.foldl (Arrival.next nng conf h) Store.empty, x) topic)
    (hsdk : x.HasPayload nng → SdkAccepts nng x topic) :
    StoredAs nng x topic
      ((x.next nng conf h (xs.foldl (Arrival.next nng conf h) Store.empty)).dbRet topic) := by
  obtain ⟨⟨t, hres, rfl⟩, hallow, hret⟩ := hw
  rcases Arrival.dbRet_next_cases nng conf h
    (xs.foldl (Arrival.next nng conf h) Store.empty) hx with
    ⟨hno, -⟩ | ⟨t', hres', -, heq⟩
  · exact absurd ⟨⟨t, hres, rfl⟩, hallow⟩ (hno t.topic)
  obtain rfl : t' = t := (Prod.mk.inj (hres'.symm.trans hres)).2
  obtain ⟨htype, hacc, htopic, hpkt⟩ := packet_routed hlaw hres
  have hwork : t'.work = { x.publishWork with
      msgInfos := [], pubPacket := t'.work.pubPacket } := (frame_of_resolve hres).work
  have hflag : (routed nng t').packet.fixedHeader.retain = true := by
    rw [hpkt]
    exact hret
  rw [heq]
  constructor
  · intro hpay
    rw [store_handlePubRetain_of_empty hsql hflag (by rw [hpkt]; exact hpay)]
    exact if_pos rfl
  · intro hpay
    have hm : (retainMsg nng x.env.pub (routed nng t')).1 = some _ :=
      retainMsg_eq hx (by change t'.work.pid = _; rw [hwork]; rfl)
        (by change t'.work.protoVer = _; rw [hwork]; rfl) hpkt (hsdk hpay)
    refine ⟨_, ?_, keeps_retainEncoded hlaw hprops hencode hvar hkind htype hacc htopic
      (hsdk hpay) x.msg.pipe x.version⟩
    rw [store_handlePubRetain_of_payload hsql hflag (by rw [hpkt]; exact hpay) hm]
    exact if_pos rfl

end Entry

/-- After every sequence of publications, what is kept for a topic is determined by the last of them
that was accepted under the topic with the retain flag. One without the flag changes no entry. -/
theorem retained_last_publish {nng : Nng} (hlaw : nng.LawfulStr) (hprops : nng.PropsInverse)
    (hencode : nng.PropsEncodable) (hvar : nng.VarintInverse) (hkind : nng.ChecksByKind)
    {conf : Conf} (hsql : (conf.build.sqlite && conf.sqliteEnable) = false) (h : SubHandlers)
    {xs : List Arrival} (hxs : ∀ x ∈ xs, IsPublication x)
    (hsdk : ∀ q ∈ trace (Arrival.next nng conf h) Store.empty xs, ∀ topic,
      RetainsUnder nng conf q topic → q.2.HasPayload nng → SdkAccepts nng q.2 topic) :
    let st := xs.foldl (Arrival.next nng conf h) Store.empty
    let met := trace (Arrival.next nng conf h) Store.empty xs
    (∀ topic,
      ((∀ q ∈ met, ¬ RetainsUnder nng conf q topic) ∧ st.dbRet topic = none) ∨
      ∃ pre q post, met = pre ++ q :: post ∧ RetainsUnder nng conf q topic ∧
        (∀ q' ∈ post, ¬ RetainsUnder nng conf q' topic) ∧
        StoredAs nng q.2 topic (st.dbRet topic)) ∧
    ∀ x, IsPublication x → ¬ x.Retain nng → (x.next nng conf h st).dbRet = st.dbRet := by
  intro st met
  refine ⟨fun topic => ?_, fun x hx hret => ?_⟩
  · have hlast := last_write (Arrival.next nng conf h) Store.empty
      (fun st : Store => st.dbRet topic)
      (W := fun q => RetainsUnder nng conf q topic)
      (Q := fun q entry => (q.2.HasPayload nng → SdkAccepts nng q.2 topic) →
        StoredAs nng q.2 topic entry)
      (fun pre x hx hw => storedAs_next hlaw (hxs x hx) pre hprops hencode hvar hkind hsql hw)
      (fun pre x hx hno => dbRet_next_of_not_retains hlaw (hxs x hx) pre hno)
    rcases hlast with hnone | ⟨pre, q, post, heq, ⟨hw, hstored⟩, hlater⟩
    · exact Or.inl hnone
    · have hq : q ∈ met := by
        rw [show met = pre ++ q :: post from heq]
        exact List.mem_append_right _ List.mem_cons_self
      exact Or.inr ⟨pre, q, post, heq, hw, hlater, hstored (hsdk q hq topic hw)⟩
  · funext topic
    exact dbRet_next_of_not_retains hlaw hx xs (fun hw => hret hw.retain)

def keepAlias : Msg :=
  { useAlias with header := [0x31, 7], body := [0, 0, 3, 0x23, 0, 1, 0x78] }

/-- It is kept under the topic that an earlier message has bound to the alias. -/
theorem retained_under_alias :
    let conf := { Conf.bare with maxTopicAlias := 1 }
    let x₁ := Arrival.ofPublish bindAlias ⟨false, true, 0⟩ rfl
    let x₂ := Arrival.ofPublish keepAlias ⟨false, true, 0⟩ rfl
    let st := [x₁, x₂].foldl (Arrival.next Nng.reference conf SubHandlers.idle) Store.empty
    ∃ m, st.dbRet (ascii "t") = some m ∧ Keeps Nng.reference x₂ (ascii "t") m := by
  intro conf x₁ x₂ st
  have hno : ∀ s topic, ¬ RetainsUnder Nng.reference conf (s, x₁) topic := by
    have hret : ¬ x₁.Retain Nng.reference := by decide
    exact fun s topic hw => hret hw.retain
  have hsdk : ∀ q ∈ trace (Arrival.next Nng.reference conf SubHandlers.idle) Store.empty [x₁, x₂],
      ∀ topic, RetainsUnder Nng.reference conf q topic → q.2.HasPayload Nng.reference →
        SdkAccepts Nng.reference q.2 topic := by
    intro q hq topic hw _
    rcases List.mem_pair.mp hq with rfl | rfl
    · exact absurd hw (hno _ _)
    · obtain ⟨t, hres, htopic⟩ := hw.processed
      have hbound : t.topic = ascii "t" :=
        (congrArg (fun r => PubState.topic r.2) hres).symm.trans (by decide)
      rw [← htopic, hbound]
      exact ⟨by decide, by decide⟩
  have hsql : (conf.build.sqlite && conf.sqliteEnable) = false := rfl
  have hxs : ∀ x ∈ [x₁, x₂], IsPublication x := by
    intro x hx
    rcases List.mem_pair.mp hx with rfl | rfl
    · exact ⟨rfl, Or.inl rfl⟩
    · exact ⟨rfl, Or.inl rfl⟩
  have hst : [x₁, x₂].foldl (Arrival.next Nng.reference conf SubHandlers.idle) Store.empty = st :=
    rfl
  have hlast := (retained_last_publish Reference.lawfulStr Reference.propsInverse
    Reference.propsEncodable Reference.varintInverse Reference.checksByKind hsql SubHandlers.idle
    hxs hsdk).1 (ascii "t")
  rw [hst] at hlast
  have hsome : (st.dbRet (ascii "t")).isSome = true := by decide
  rcases hlast with ⟨-, hnone⟩ | ⟨pre, q, post, heq, hw, -, hstored⟩
  · rw [hnone] at hsome
    cases hsome
  · have hq : q ∈ trace (Arrival.next Nng.reference conf SubHandlers.idle) Store.empty
        [x₁, x₂] := by
      rw [heq]
      exact List.mem_append_right _ List.mem_cons_self
    rcases List.mem_pair.mp hq with rfl | rfl
    · exact absurd hw (hno _ _)
    · exact hstored.kept (by decide)

end NanoMQ
