import NanoMQ.ClientHistory

/-!
# Topic aliases over whole histories

A message that carries only an alias is processed under the topic that its own connection bound to
the alias last, since the connection came up. Other connections have no part in it, and neither has
an earlier connection on the same pipe once its loss was handled.
-/

namespace NanoMQ

open ByteBuffer BindingHistory EarlyReturn

def ClientEvent.Binds (nng : Nng) (conf : Conf) :
    ClientEvent → ℕ → UInt16 → Bytes → Prop
  | .arrival x, p, a, topic =>
      x.msg.cmdType = .publish ∧ x.msg.pipe = p ∧
        BindsAlias nng conf x.env.pub x.version x.publishWork a topic
  | .subscriptions _ _, _, _, _ => False

def ClientEvent.Clears : ClientEvent → ℕ → Prop
  | .arrival x, p => x.msg.cmdType = .disconnectEv ∧ x.msg.pipe = p
  | .subscriptions _ _, _ => False

/-- A PUBLISH of MQTT 5 that can be decoded, with an alias and an empty topic. -/
structure AliasOnly (nng : Nng) (x : Arrival) (a : UInt16) : Prop where
  publish : x.msg.cmdType = .publish
  type : x.msg.getType = PacketType.publish
  version : x.version = ProtoVer.v5
  decoded : (x.publishWork.decoding nng x.version).code = ReasonCode.success
  topic : nng.IsStr x.msg.body 0 (i32 x.msg.body.length)
  empty : get16 x.msg.body 0 = 0
  carries : (propertyGetValue (x.publishWork.decoding nng x.version).packet.properties
    topicAliasId).map PropertyValue.asU16 = some a

def ProcessedUnder (nng : Nng) (conf : Conf) (st : Store) (x : Arrival) (topic : Bytes) : Prop :=
  ∃ t, resolve nng conf x.env.pub x.version false (pubStart st x.publishWork) = (none, t) ∧
    t.topic = topic

section Tracks

variable {nng : Nng} {conf : Conf} {h : SubHandlers}

theorem Store.atpairs_insertAtpair_self (st : Store) (p : ℕ) (a : UInt16) (topic : Bytes) :
    (st.insertAtpair p a topic).atpairs p a = some topic := if_pos ⟨rfl, rfl⟩

theorem Arrival.atpairs_run_publish_of_not_binds {x : Arrival} (hk : x.msg.cmdType = .publish)
    (st : Store) {p : ℕ} {a : UInt16}
    (hno : ∀ topic, ¬ (ClientEvent.arrival x).Binds nng conf p a topic) :
    (x.run nng conf h st).store.atpairs p a = st.atpairs p a := by
  rw [x.store_run_publish hk, Arrival.handlePub]
  by_cases hb : ∃ b topic, BindsAlias nng conf x.env.pub x.version x.publishWork b topic
  · obtain ⟨b, topic, hb⟩ := hb
    rw [atpairs_of_binds (Or.inl x.publishWork_proto) hb]
    apply if_neg
    rintro ⟨rfl, rfl⟩
    exact hno topic ⟨hk, rfl, hb⟩
  · rw [atpairs_of_keeps (Or.inl x.publishWork_proto) (fun b topic hb' => hb ⟨b, topic, hb'⟩)]

/-- The alias table follows the history of the clients. -/
theorem tracks_atpairs :
    Tracks (ClientEvent.Binds nng conf) ClientEvent.Clears (ClientEvent.apply nng conf h)
      Store.atpairs where
  bind {st e p a topic} hb := by
    cases e with
    | subscriptions db dbhash => exact hb.elim
    | arrival x =>
      obtain ⟨hk, rfl, hb⟩ := hb
      rw [ClientEvent.apply, x.store_run_publish hk, Arrival.handlePub,
        atpairs_of_binds (Or.inl x.publishWork_proto) hb]
      exact Store.atpairs_insertAtpair_self st _ a topic
  clear {st e p a} hc := by
    cases e with
    | subscriptions db dbhash => exact hc.elim
    | arrival x =>
      obtain ⟨hk, rfl⟩ := hc
      rw [ClientEvent.apply, x.atpairs_run_disconnect hk]
      exact if_pos rfl
  keep {st e p a} hc hno := by
    cases e with
    | subscriptions db dbhash => rfl
    | arrival x =>
      rcases x.kind with hk | hk | hk
      · exact Arrival.atpairs_run_publish_of_not_binds hk st hno
      · rw [ClientEvent.apply, x.atpairs_run_connack hk]
      · rw [ClientEvent.apply, x.atpairs_run_disconnect hk]
        exact if_neg (fun hp => hc ⟨hk, hp.symm⟩)

end Tracks

section AliasOnly

variable {nng : Nng} {conf : Conf} {x : Arrival} {a : UInt16}

/-- An empty topic is decoded to none. -/
theorem AliasOnly.topic_none (hlaw : nng.LawfulStr) (hx : AliasOnly nng x a) :
    (x.publishWork.decoding nng x.version).packet.topicBody = none ∧
      (x.publishWork.decoding nng x.version).packet.topicLen = 0 := by
  have hacc := (decodePubMessage_success_iff (m := x.msg.stamp x.version) hx.type _).mp hx.decoded
  have hdec : x.publishWork.decoding nng x.version = _ := hacc.decodePubMessage_eq hx.type
  have hstr : topicStr nng (x.msg.stamp x.version) = _ := topicStr_of_isStr hlaw hx.topic
  rw [hdec]
  change (topicStr nng (x.msg.stamp x.version)).dest = none ∧
    u32 (topicStr nng (x.msg.stamp x.version)).len = 0
  rw [hstr]
  change (if get16 x.msg.body 0 = 0 then none else some _) = none ∧ u32 (get16 x.msg.body 0) = 0
  rw [hx.empty]
  exact ⟨rfl, rfl⟩

/-- The alias is looked up on the connection of the message, and the message is refused when there
is nothing to find. -/
theorem AliasOnly.resolve_cases (hlaw : nng.LawfulStr) (hx : AliasOnly nng x a) (conf : Conf)
    (st : Store) :
    (∃ topic t, ValidAlias conf a ∧ st.atpairs x.msg.pipe a = some topic ∧
      resolve nng conf x.env.pub x.version false (pubStart st x.publishWork) = (none, t) ∧
      t.packet.topicBody = some topic) ∨
    (∀ topic, ¬ (ValidAlias conf a ∧ st.atpairs x.msg.pipe a = some topic)) ∧
      ∃ t, resolve nng conf x.env.pub x.version false (pubStart st x.publishWork) =
        (some ReasonCode.topicAliasInvalid, t) := by
  obtain ⟨hnone, hlen⟩ := hx.topic_none hlaw
  have hauth : ¬ HttpRefuses conf x.env.pub
      (x.publishWork.decoding nng x.version).packet.topicBody := by
    rw [hnone]
    exact fun hr => hr.2.1 rfl
  have htype : (x.publishWork.decoding nng x.version).packet.fixedHeader.packetType =
      PacketType.publish := by
    rw [Work.decoding, fixedHeader_decodePubMessage]
    exact hx.type
  obtain ⟨s, hw, hst, hres⟩ := resolve_to_alias false st (Or.inl x.publishWork_proto) hx.decoded
    htype hauth
  have hpkt : s.packet = (x.publishWork.decoding nng x.version).packet := by
    rw [PubState.packet, hw]
    rfl
  have hpid : s.work.pid = x.msg.pipe := by rw [hw]; rfl
  obtain ⟨v, hp, rfl⟩ := Option.map_eq_some_iff.mp hx.carries
  rw [← hpkt] at hp hlen
  have hn : ¬ s.packet.Named := fun hn => by
    rw [PubPacket.Named, hlen] at hn
    exact absurd hn.1 (lt_irrefl 0)
  have halias : aliasStep conf x.version s = aliasValueStep conf v.asU16 s :=
    aliasStep_carries hx.version hp
  by_cases hv : ValidAlias conf v.asU16
  · rw [aliasValueStep_unnamed hv hn, hpid, hst] at halias
    cases htp : st.atpairs x.msg.pipe v.asU16 with
    | some tp =>
      rw [htp] at halias
      rw [andThen_of_go halias] at hres
      exact Or.inl ⟨tp, _, hv, rfl, hres.trans (if_neg (Option.some_ne_none tp)), rfl⟩
    | none =>
      rw [htp] at halias
      rw [andThen_of_return halias] at hres
      exact Or.inr ⟨fun topic hb => (Option.some_ne_none topic) hb.2.symm, s, hres⟩
  · rw [aliasValueStep_invalid hv] at halias
    rw [andThen_of_return halias] at hres
    exact Or.inr ⟨fun topic hb => hv hb.1, s, hres⟩

end AliasOnly

/-- What is bound is a C string. -/
theorem cstr_of_lastBinding {nng : Nng} {conf : Conf} {events : List ClientEvent} {p : ℕ}
    {a : UInt16} {topic : Bytes}
    (hlast : LastBinding (ClientEvent.Binds nng conf) ClientEvent.Clears events p a topic) :
    cstr topic = topic := by
  obtain ⟨pre, e, post, -, hb, -⟩ := hlast
  cases e with
  | subscriptions db dbhash => exact hb.elim
  | arrival x =>
    rw [← hb.2.2.topic]
    exact cstr_cstr _

/-- A message that carries only an alias is processed under a topic exactly when the alias is valid
and the topic is what its connection bound to it last; otherwise it is refused and goes nowhere. -/
theorem aliasOnly_processedUnder_iff {nng : Nng} (hlaw : nng.LawfulStr) (conf : Conf)
    (h : SubHandlers) (events : List ClientEvent) {x : Arrival} {a : UInt16}
    (hx : AliasOnly nng x a) :
    let st := runEvents nng conf h Store.empty events
    let Bound := fun topic => ValidAlias conf a ∧
      LastBinding (ClientEvent.Binds nng conf) ClientEvent.Clears events x.msg.pipe a topic
    (∀ topic, ProcessedUnder nng conf st x topic ↔ Bound topic) ∧
      ((∀ topic, ¬ Bound topic) →
        (x.handlePub nng conf st).1 = ReasonCode.topicAliasInvalid ∧
          ∀ act ∈ (x.handlePub nng conf st).2.actions, act.underTopic = none) := by
  intro st Bound
  have htable : ∀ topic, st.atpairs x.msg.pipe a = some topic ↔
      LastBinding (ClientEvent.Binds nng conf) ClientEvent.Clears events x.msg.pipe a topic :=
    table_foldl_eq_some_iff tracks_atpairs rfl events
  rcases hx.resolve_cases hlaw conf st with ⟨tp, t, hv, htp, hres, hbody⟩ | ⟨hno, t, hres⟩
  · have hlast := (htable tp).mp htp
    have htopic : t.topic = tp := by
      rw [PubState.topic, hbody, Option.getD_some, cstr_of_lastBinding hlast]
    refine ⟨fun topic => ?_, fun hnone => absurd ⟨hv, hlast⟩ (hnone tp)⟩
    constructor
    · rintro ⟨t', hres', rfl⟩
      obtain rfl : t = t' := congrArg Prod.snd (hres.symm.trans hres')
      rw [htopic]
      exact ⟨hv, hlast⟩
    · rintro ⟨-, hlast'⟩
      refine ⟨t, hres, ?_⟩
      rw [htopic]
      exact Option.some.inj (htp.symm.trans ((htable topic).mpr hlast'))
  · constructor
    · intro topic
      apply iff_of_false
      · rintro ⟨t', hres', -⟩
        rw [hres] at hres'
        cases hres'
      · rintro ⟨hv, hlast⟩
        exact hno topic ⟨hv, (htable topic).mpr hlast⟩
    · intro _
      obtain ⟨acts, hacts, hunder⟩ := (frame_of_resolve hres).actions
      rw [Arrival.handlePub, handlePub_of_resolve_return hres]
      refine ⟨rfl, fun act hact => hunder act ?_⟩
      rwa [hacts] at hact

def Arrival.ofPublish (m : Msg) (env : PubEnv) (hm : m.cmdType = .publish) : Arrival where
  env := ⟨.ok, none, env, fun _ _ => true⟩
  work := Work.alloc .mqttBroker
  msg := m
  broker := Work.proto_alloc .mqttBroker
  kind := Or.inl hm

theorem useAlias_processedUnder_bound :
    let conf := { Conf.bare with maxTopicAlias := 1 }
    ProcessedUnder Nng.reference conf
      (runEvents Nng.reference conf SubHandlers.idle Store.empty
        [.arrival (.ofPublish bindAlias ⟨false, true, 0⟩ rfl)])
      (.ofPublish useAlias ⟨false, true, 0⟩ rfl) (ascii "t") := by
  intro conf
  have hx : AliasOnly Nng.reference (.ofPublish useAlias ⟨false, true, 0⟩ rfl) 1 := by
    constructor <;> decide
  have hb : BindsAlias Nng.reference conf ⟨false, true, 0⟩ ProtoVer.v5
      (Arrival.ofPublish bindAlias ⟨false, true, 0⟩ rfl).publishWork 1 (ascii "t") := by
    refine ⟨rfl, by decide, by decide, fun hr => Bool.false_ne_true hr.1, by decide, ?_, ?_, ?_⟩
    · exact ⟨by decide, by decide⟩
    · exact ⟨by decide, by decide⟩
    · decide
  apply ((aliasOnly_processedUnder_iff Reference.lawfulStr conf _ _ hx).1 _).mpr
  refine ⟨hb.valid, [], _, [], rfl, ⟨rfl, rfl, hb⟩, ?_⟩
  intro e he
  cases he

end NanoMQ
