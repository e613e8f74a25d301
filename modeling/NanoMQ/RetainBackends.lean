import NanoMQ.RetainStore

/-!
# The two backends of the retained messages

The sqlite backend keeps the message as it came in, the other one keeps it encoded anew. The two
runs on the same publications go through the same aliases and accept the same messages, so their
entries agree as long as every retained message brings its topic along. A topic that came from an
alias is not in the message, and is lost with sqlite.
-/

namespace NanoMQ

open ByteBuffer EarlyReturn

structure SameAliases (s s' : PubState) : Prop where
  work : s'.work = s.work
  atpairs : s'.store.atpairs = s.store.atpairs

namespace SameAliases

variable {nng : Nng} {conf : Conf} {env : PubEnv} {proto : ProtoVer} {isEvent : Bool}

theorem decodeStep : Respects SameAliases (decodeStep nng proto isEvent) := by
  intro s s' h
  unfold NanoMQ.decodeStep
  rw [h.work]
  dsimp only
  split_ifs
  · exact ⟨rfl, by unfold PubState.setPacket; rw [h.work], h.atpairs⟩
  · exact ⟨rfl, by unfold PubState.setPacket; rw [h.work], h.atpairs⟩
  · exact ⟨rfl, h⟩

theorem typeStep : Respects SameAliases typeStep := by
  intro s s' h
  unfold NanoMQ.typeStep PubState.packet
  rw [h.work]
  split_ifs <;> exact ⟨rfl, h⟩

theorem authHttpStep : Respects SameAliases (authHttpStep conf env) := by
  intro s s' h
  unfold NanoMQ.authHttpStep PubState.packet
  rw [h.work]
  cases topicQueueInit env s.work.packet.topicBody with
  | none => split_ifs <;> exact ⟨rfl, h⟩
  | some queue =>
    dsimp only
    split_ifs
    · exact ⟨rfl, h.work, h.atpairs⟩
    · exact ⟨rfl, h.work, h.atpairs⟩
    · exact ⟨rfl, h⟩

theorem aliasValueStep (a : UInt16) : Respects SameAliases (aliasValueStep conf a) := by
  intro s s' h
  unfold NanoMQ.aliasValueStep PubState.topic PubState.packet
  rw [h.work, h.atpairs]
  split_ifs
  · exact ⟨rfl, h⟩
  · refine ⟨rfl, h.work, ?_⟩
    unfold Store.insertAtpair
    dsimp only
    rw [h.atpairs]
  · cases s.store.atpairs s.work.pid a with
    | none => exact ⟨rfl, h⟩
    | some tp => exact ⟨rfl, by unfold PubState.setPacket; rw [h.work], h.atpairs⟩

theorem aliasStep : Respects SameAliases (aliasStep conf proto) := by
  intro s s' h
  unfold NanoMQ.aliasStep PubState.packet
  rw [h.work]
  cases propertyGetValue s.work.packet.properties topicAliasId with
  | none =>
    dsimp only
    split_ifs <;> exact ⟨rfl, h⟩
  | some v =>
    dsimp only
    split_ifs
    · exact aliasValueStep v.asU16 h
    · exact ⟨rfl, h⟩

theorem topicStep : Respects SameAliases topicStep := by
  intro s s' h
  unfold NanoMQ.topicStep PubState.packet
  rw [h.work]
  split_ifs <;> exact ⟨rfl, h⟩

/-- Up to the access control a call reads nothing of the tables but the aliases. -/
theorem resolve : Respects SameAliases (resolve nng conf env proto isEvent) :=
  andThen_respects decodeStep (andThen_respects typeStep (andThen_respects authHttpStep
    (andThen_respects aliasStep topicStep)))

end SameAliases

def Conf.inMemory (conf : Conf) : Conf := { conf with sqliteEnable := false }

/-- What an entry of the sqlite backend decodes to, with the version it was stored under. -/
def storedDecoding (nng : Nng) (e : Msg × ProtoVer) : Decoded :=
  decodePubMessage nng e.1 e.2 PubPacket.zalloc

def keptDecoding (nng : Nng) (m : Msg) : Decoded :=
  decodePubMessage nng m m.publishProtoVersion PubPacket.zalloc

structure SameEntry (nng : Nng) (e : Msg × ProtoVer) (m : Msg) : Prop where
  stored : (storedDecoding nng e).code = ReasonCode.success
  kept : (keptDecoding nng m).code = ReasonCode.success
  topic : (keptDecoding nng m).packet.topicBody = (storedDecoding nng e).packet.topicBody
  qos : (keptDecoding nng m).packet.fixedHeader.qos =
    (storedDecoding nng e).packet.fixedHeader.qos
  properties : (keptDecoding nng m).packet.properties = (storedDecoding nng e).packet.properties
  payload : (keptDecoding nng m).packet.payloadData.getD [] =
    (storedDecoding nng e).packet.payloadData.getD []

/-- The entries of the sqlite backend in the one state and those in memory in the other are the
same. -/
def BackendsAgree (nng : Nng) (st st' : Store) : Prop :=
  ∀ topic, Option.Rel (SameEntry nng) (st.sqliteRet topic) (st'.dbRet topic)

def Arrival.BringsTopic (nng : Nng) (x : Arrival) : Prop :=
  x.Retain nng → x.HasPayload nng → (x.publishWork.decoding nng x.version).packet.Named

section Sqlite

variable {nng : Nng} {conf : Conf} {env : PubEnv} {topic : Bytes} {s : PubState}
  (hsql : (conf.build.sqlite && conf.sqliteEnable) = true)
  (hret : s.packet.fixedHeader.retain = true)

include hsql hret

theorem store_sqlite_of_empty (hpay : ¬ s.packet.payloadLen > 0) :
    (handlePubRetain nng conf env topic s).store = s.store.setSqliteRet topic none := by
  unfold handlePubRetain handlePubRetainSqlite
  rw [hsql, hret, if_pos rfl, if_pos rfl, if_neg hpay]

theorem store_sqlite_of_payload (hpay : s.packet.payloadLen > 0) :
    (handlePubRetain nng conf env topic s).store =
      s.store.setSqliteRet topic (s.work.msg.map (fun m => (m, s.work.protoVer))) := by
  unfold handlePubRetain handlePubRetainSqlite
  rw [hsql, hret, if_pos rfl, if_pos rfl, if_pos hpay]

end Sqlite

section Named

variable {nng : Nng} {conf : Conf} {st : Store} {x : Arrival} {t : PubState}

/-- A PUBLISH with a topic of its own is handed on as it was decoded. -/
theorem packet_of_named (hn : (x.publishWork.decoding nng x.version).packet.Named)
    (hres : resolve nng conf x.env.pub x.version false (pubStart st x.publishWork) = (none, t)) :
    t.packet = (x.publishWork.decoding nng x.version).packet := by
  obtain ⟨s₁, s₂, hdec, -, hauth, halias, -⟩ := resolve_go hres
  obtain ⟨-, hs₁⟩ := decodeStep_go (Or.inl x.publishWork_proto) hdec
  have hpkt₁ : s₁.packet = (x.publishWork.decoding nng x.version).packet := by rw [hs₁]; rfl
  have hpkt₂ : s₂.packet = (x.publishWork.decoding nng x.version).packet := by
    rw [← hpkt₁, PubState.packet, (authHttpStep_spec hauth).1]
    rfl
  rw [← hpkt₂] at hn ⊢
  exact aliasStep_named hn halias

end Named

section Step

variable {nng : Nng} {conf : Conf} {st st' : Store} {topic : Bytes}

theorem BackendsAgree.congr {st₁ st₁' : Store} (h : BackendsAgree nng st st')
    (hst : st₁.retained = st.retained) (hst' : st₁'.retained = st'.retained) :
    BackendsAgree nng st₁ st₁' := by
  intro T
  rw [show st₁.sqliteRet = st.sqliteRet from congrArg Prod.snd hst,
    show st₁'.dbRet = st'.dbRet from congrArg Prod.fst hst']
  exact h T

theorem BackendsAgree.set {e : Option (Msg × ProtoVer)} {m : Option Msg}
    (h : BackendsAgree nng st st') (hnew : Option.Rel (SameEntry nng) e m) :
    BackendsAgree nng (st.setSqliteRet topic e) (st'.setRet topic m) := by
  intro T
  unfold Store.setSqliteRet Store.setRet
  dsimp only
  split_ifs
  · exact hnew
  · exact h T

end Step

section Publish

variable {nng : Nng} (hlaw : nng.LawfulStr) (hprops : nng.PropsInverse)
  (hencode : nng.PropsEncodable) (hvar : nng.VarintInverse) (hkind : nng.ChecksByKind)
  {conf : Conf} {x : Arrival} {topic : Bytes}

include hlaw hprops hencode hvar hkind in
theorem sameEntry_of_brought (htype : (x.msg.stamp x.version).getType = PacketType.publish)
    (hacc : Accepts nng (x.msg.stamp x.version) x.version) (htopic : TopicOk nng topic)
    (hbody : (x.publishWork.decoding nng x.version).packet.topicBody = some topic)
    (hsdk : SdkAccepts nng x topic) :
    SameEntry nng (x.msg.stamp x.version, x.version)
      { (x.retainEncoded nng topic).msg with
        pipe := x.msg.pipe, publishProtoVersion := x.version } := by
  have hkeep := keeps_retainEncoded hlaw hprops hencode hvar hkind htype hacc htopic hsdk
    x.msg.pipe x.version
  have hstored : storedDecoding nng (x.msg.stamp x.version, x.version) =
      x.publishWork.decoding nng x.version := rfl
  refine ⟨?_, hkeep.code, ?_, hkeep.same.qos, hkeep.same.properties, hkeep.same.payloadData⟩
  · rw [storedDecoding, hacc.decodePubMessage_eq htype]
  · rw [hstored, hbody]
    exact hkeep.same.topicBody

variable (h : SubHandlers) (xs : List Arrival)

/-- The same PUBLISH, met with the same aliases, is accepted by both or by neither. -/
theorem resolve_inMemory {st st' : Store} (hat : st'.atpairs = st.atpairs)
    {o : Option ReasonCode} {t : PubState}
    (hres : resolve nng conf x.env.pub x.version false (pubStart st x.publishWork) = (o, t)) :
    ∃ t', resolve nng conf.inMemory x.env.pub x.version false (pubStart st' x.publishWork) =
      (o, t') ∧ SameAliases t t' := by
  have hstart : SameAliases (pubStart st x.publishWork) (pubStart st' x.publishWork) := ⟨rfl, hat⟩
  have hrel : (resolve nng conf x.env.pub x.version false (pubStart st' x.publishWork)).1 = _ ∧
      SameAliases _ _ := SameAliases.resolve hstart
  rw [hres] at hrel
  exact ⟨(resolve nng conf x.env.pub x.version false (pubStart st' x.publishWork)).2,
    Prod.ext hrel.1 rfl, hrel.2⟩

theorem SameAliases.topic_eq {t t' : PubState} (hsame : SameAliases t t') : t'.topic = t.topic := by
  unfold PubState.topic PubState.packet
  rw [hsame.work]

theorem SameAliases.packet_routed {t t' : PubState} (hsame : SameAliases t t') :
    (routed nng t').packet = (routed nng t).packet := by
  change t'.work.packet = t.work.packet
  rw [hsame.work]

theorem work_routed {st : Store} {t : PubState}
    (hres : resolve nng conf x.env.pub x.version false (pubStart st x.publishWork) = (none, t)) :
    t.work.pid = x.msg.pipe ∧ t.work.protoVer = x.version ∧
      t.work.msg = some (x.msg.stamp x.version) := by
  have hwork : t.work = { x.publishWork with
      msgInfos := [], pubPacket := t.work.pubPacket } := (frame_of_resolve hres).work
  rw [hwork]
  exact ⟨rfl, rfl, rfl⟩

include hlaw hprops hencode hvar hkind in
/-- Both backends make the same of a message that is routed. -/
theorem agree_handlePubRetain (hsql : (conf.build.sqlite && conf.sqliteEnable) = true)
    (hx : IsPublication x) (hbrings : x.BringsTopic nng)
    (hsdk : x.Retain nng → x.HasPayload nng → ∀ topic,
      (x.publishWork.decoding nng x.version).packet.topicBody = some topic →
        SdkAccepts nng x topic)
    {t t' : PubState} (hsame : SameAliases t t')
    (hres : resolve nng conf x.env.pub x.version false
      (pubStart (xs.foldl (Arrival.next nng conf h) Store.empty) x.publishWork) = (none, t))
    (hag : BackendsAgree nng t.store t'.store) :
    BackendsAgree nng (handlePubRetain nng conf x.env.pub t.topic (routed nng t)).store
      (handlePubRetain nng conf.inMemory x.env.pub t'.topic (routed nng t')).store := by
  obtain ⟨htype, hacc, htopic, hpkt⟩ := packet_routed hlaw hres
  obtain ⟨hpid, hver, hmsg⟩ := work_routed hres
  have hpkt' : (routed nng t').packet = x.packetUnder nng t.topic := hsame.packet_routed.trans hpkt
  have hmem : (conf.inMemory.build.sqlite && conf.inMemory.sqliteEnable) = false := Bool.and_false _
  rw [hsame.topic_eq]
  by_cases hret : x.Retain nng
  · have hflag : (routed nng t).packet.fixedHeader.retain = true := by
      rw [hpkt]
      exact hret
    have hflag' : (routed nng t').packet.fixedHeader.retain = true := by
      rw [hpkt']
      exact hret
    by_cases hpay : x.HasPayload nng
    · have hbody : (x.publishWork.decoding nng x.version).packet.topicBody = some t.topic := by
        rw [← packet_of_named (hbrings hret hpay) hres]
        exact congrArg PubPacket.topicBody hpkt
      have hacc' := hsdk hret hpay t.topic hbody
      have hstored : (routed nng t).work.msg.map (fun m => (m, (routed nng t).work.protoVer)) =
          some (x.msg.stamp x.version, x.version) := by
        change t.work.msg.map (fun m => (m, t.work.protoVer)) = _
        rw [hmsg, hver]
        rfl
      rw [← hsame.work] at hpid hver
      rw [store_sqlite_of_payload hsql hflag (by rw [hpkt]; exact hpay), hstored,
        store_handlePubRetain_of_payload hmem hflag' (by rw [hpkt']; exact hpay)
          (retainMsg_eq hx hpid hver hpkt' hacc')]
      exact hag.set (.some (sameEntry_of_brought hlaw hprops hencode hvar hkind htype hacc htopic
        hbody hacc'))
    · rw [store_sqlite_of_empty hsql hflag (by rw [hpkt]; exact hpay),
        store_handlePubRetain_of_empty hmem hflag' (by rw [hpkt']; exact hpay)]
      exact hag.set .none
  · have hflag : (x.packetUnder nng t.topic).fixedHeader.retain = false :=
      Bool.eq_false_iff.mpr hret
    rw [handlePubRetain_of_not_retain (by rw [hpkt, hflag]),
      handlePubRetain_of_not_retain (by rw [hpkt', hflag])]
    exact hag

include hlaw hprops hencode hvar hkind in
theorem agree_next (hsql : (conf.build.sqlite && conf.sqliteEnable) = true)
    (hx : IsPublication x) (hbrings : x.BringsTopic nng)
    (hsdk : x.Retain nng → x.HasPayload nng → ∀ topic,
      (x.publishWork.decoding nng x.version).packet.topicBody = some topic →
        SdkAccepts nng x topic)
    {st' : Store} (hat : st'.atpairs = (xs.foldl (Arrival.next nng conf h) Store.empty).atpairs)
    (hag : BackendsAgree nng (xs.foldl (Arrival.next nng conf h) Store.empty) st') :
    (x.next nng conf.inMemory h st').atpairs =
        (x.next nng conf h (xs.foldl (Arrival.next nng conf h) Store.empty)).atpairs ∧
      BackendsAgree nng (x.next nng conf h (xs.foldl (Arrival.next nng conf h) Store.empty))
        (x.next nng conf.inMemory h st') := by
  rw [Arrival.next_eq hx, Arrival.next_eq hx]
  rcases hres : resolve nng conf x.env.pub x.version false
    (pubStart (xs.foldl (Arrival.next nng conf h) Store.empty) x.publishWork) with ⟨o, t⟩
  obtain ⟨t', hres', hsame⟩ := resolve_inMemory hat hres
  have hag' : BackendsAgree nng t.store t'.store :=
    hag.congr (frame_of_resolve hres).retained (frame_of_resolve hres').retained
  rw [atpairs_handlePub hres, atpairs_handlePub hres']
  refine ⟨hsame.atpairs, ?_⟩
  cases o with
  | some c =>
    rw [handlePub_of_resolve_return hres, handlePub_of_resolve_return hres']
    exact hag'
  | none =>
    have hacl : AclRefuses nng conf.inMemory false t' ↔ AclRefuses nng conf false t := by
      unfold AclRefuses PubState.topic PubState.packet
      rw [hsame.work]
      rfl
    by_cases href : AclRefuses nng conf false t
    · rw [handlePub_of_refused hres href, handlePub_of_refused hres' (hacl.mpr href)]
      exact hag'
    · rw [handlePub_of_routed hres href, handlePub_of_routed hres' (mt hacl.mp href),
        routeStep_eq, routeStep_eq]
      exact agree_handlePubRetain hlaw hprops hencode hvar hkind h xs hsql hx hbrings hsdk hsame
        hres hag'

end Publish

/-- After every sequence of publications whose retained messages bring their topics along, the two
backends hold the same. -/
theorem backends_agree {nng : Nng} (hlaw : nng.LawfulStr) (hprops : nng.PropsInverse)
    (hencode : nng.PropsEncodable) (hvar : nng.VarintInverse) (hkind : nng.ChecksByKind)
    {conf : Conf} (hsql : (conf.build.sqlite && conf.sqliteEnable) = true) (h : SubHandlers)
    {xs : List Arrival} (hxs : ∀ x ∈ xs, IsPublication x)
    (hbrings : ∀ x ∈ xs, x.BringsTopic nng)
    (hsdk : ∀ x ∈ xs, x.Retain nng → x.HasPayload nng → ∀ topic,
      (x.publishWork.decoding nng x.version).packet.topicBody = some topic →
        SdkAccepts nng x topic) :
    BackendsAgree nng (xs.foldl (Arrival.next nng conf h) Store.empty)
      (xs.foldl (Arrival.next nng conf.inMemory h) Store.empty) := by
  suffices hboth : (xs.foldl (Arrival.next nng conf.inMemory h) Store.empty).atpairs =
      (xs.foldl (Arrival.next nng conf h) Store.empty).atpairs ∧
      BackendsAgree nng (xs.foldl (Arrival.next nng conf h) Store.empty)
        (xs.foldl (Arrival.next nng conf.inMemory h) Store.empty) from hboth.2
  induction xs using List.reverseRecOn with
  | nil =>
    rw [List.foldl_nil, List.foldl_nil]
    exact ⟨rfl, fun _ => .none⟩
  | append_singleton xs x ih =>
    have hold : ∀ y ∈ xs, y ∈ xs ++ [x] := fun y hy => List.mem_append_left _ hy
    have hnew : x ∈ xs ++ [x] := List.mem_append_right _ List.mem_cons_self
    obtain ⟨hat, hag⟩ := ih (fun y hy => hxs y (hold y hy)) (fun y hy => hbrings y (hold y hy))
      (fun y hy => hsdk y (hold y hy))
    rw [List.foldl_append, List.foldl_append]
    exact agree_next hlaw hprops hencode hvar hkind h xs hsql (hxs x hnew) (hbrings x hnew)
      (hsdk x hnew) hat hag

def sqliteConf : Conf :=
  { Conf.bare with
    build := { Conf.bare.build with sqlite := true }, sqliteEnable := true, maxTopicAlias := 1 }

def keepPlain : Msg :=
  { simplePublish (ascii "a") with header := [0x31, 4], body := [0, 1, 0x61, 0x78] }

theorem plain_kept_alike :
    let x := Arrival.ofPublish keepPlain ⟨false, true, 0⟩ rfl
    let st := [x].foldl (Arrival.next Nng.reference sqliteConf SubHandlers.idle) Store.empty
    let st' :=
      [x].foldl (Arrival.next Nng.reference sqliteConf.inMemory SubHandlers.idle) Store.empty
    (st.sqliteRet (ascii "a")).isSome = true ∧ BackendsAgree Nng.reference st st' := by
  intro x st st'
  have hbody : (x.publishWork.decoding Nng.reference x.version).packet.topicBody =
      some (ascii "a") := by decide
  refine ⟨by decide, backends_agree Reference.lawfulStr Reference.propsInverse
    Reference.propsEncodable Reference.varintInverse Reference.checksByKind rfl SubHandlers.idle
    ?_ ?_ ?_⟩
  · intro y hy
    obtain rfl := List.mem_singleton.mp hy
    exact ⟨rfl, Or.inr (Or.inl rfl)⟩
  · intro y hy _ _
    obtain rfl := List.mem_singleton.mp hy
    exact ⟨by decide, by decide⟩
  · intro y hy _ _ topic htopic
    obtain rfl := List.mem_singleton.mp hy
    obtain rfl : ascii "a" = topic := Option.some.inj (hbody.symm.trans htopic)
    exact ⟨by decide, by decide⟩

/-- A message that names its topic by an alias is stored by sqlite without any topic. -/
theorem alias_lost_with_sqlite :
    let xs := [Arrival.ofPublish bindAlias ⟨false, true, 0⟩ rfl,
      Arrival.ofPublish keepAlias ⟨false, true, 0⟩ rfl]
    let st := xs.foldl (Arrival.next Nng.reference sqliteConf SubHandlers.idle) Store.empty
    let st' :=
      xs.foldl (Arrival.next Nng.reference sqliteConf.inMemory SubHandlers.idle) Store.empty
    (st.sqliteRet (ascii "t")).map (fun e => (storedDecoding Nng.reference e).packet.topicBody) =
        some none ∧
      (st'.dbRet (ascii "t")).map (fun m => (keptDecoding Nng.reference m).packet.topicBody) =
        some (some (ascii "t")) ∧
      ¬ BackendsAgree Nng.reference st st' := by
  intro xs st st'
  have hstored : (st.sqliteRet (ascii "t")).map
      (fun e => (storedDecoding Nng.reference e).packet.topicBody) = some none := by decide
  have hkept : (st'.dbRet (ascii "t")).map
      (fun m => (keptDecoding Nng.reference m).packet.topicBody) = some (some (ascii "t")) := by
    decide
  refine ⟨hstored, hkept, fun hag => ?_⟩
  obtain ⟨e, he, hnone⟩ := Option.map_eq_some_iff.mp hstored
  obtain ⟨m, hm, hsome⟩ := Option.map_eq_some_iff.mp hkept
  have hrel := hag (ascii "t")
  rw [he, hm] at hrel
  cases hrel with
  | some hsame =>
    rw [hsame.topic, hnone] at hsome
    cases hsome

end NanoMQ
