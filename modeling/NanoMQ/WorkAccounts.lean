import NanoMQ.PubSteps
import NanoMQ.WorkResources

/-!
# The accounts of a work

Between two operations of a work there is no packet but the one `work->pub_packet` points to, and no
vector but `msg_infos`, whose elements are the pipes that `serverCb` has. Each function of the work
keeps it so and is free of faults; what it does besides is the step of `serverCb`.
-/

namespace NanoMQ

open ByteBuffer EarlyReturn

namespace WorkRes

structure Owned (r : WorkRes) : Prop where
  packet : r.packet.Sole
  infos : r.infos.Sole
  isSome : r.sys.work.pubPacket.isSome = r.packet.ptr.isSome
  elems : CVector.elems r.infos.heap r.infos.ptr = some r.sys.work.msgInfos

structure Bare (r : WorkRes) : Prop extends Owned r where
  noPacket : r.packet.ptr = none
  noInfos : r.infos.ptr = none

structure Held (r : WorkRes) : Prop extends Owned r where
  hasPacket : r.packet.ptr.isSome = true

section Operations

variable {r : WorkRes} {a : Wake} {p : OwnerSlot Unit} {i : OwnerSlot (List ℕ)}

theorem bare_mk (hp : p.Sole) (hpnull : p.ptr = none) (hi : i.Sole) (hinull : i.ptr = none)
    {s : Sys} (hpkt : s.work.pubPacket = none) (hinfos : s.work.msgInfos = [])
    {l : List (Option ConnParam)} : Bare ⟨s, p, i, l⟩ where
  packet := hp
  infos := hi
  isSome := by rw [hpkt, hpnull]; rfl
  elems := by rw [hinull, hinfos]; rfl
  noPacket := hpnull
  noInfos := hinull

theorem Bare.pubPacket (h : r.Bare) : r.sys.work.pubPacket = none := by
  have hnone := h.isSome
  rw [h.noPacket, Option.isSome_none, Option.isSome_eq_false_iff] at hnone
  exact Option.isNone_iff_eq_none.mp hnone

theorem Bare.msgInfos (h : r.Bare) : r.sys.work.msgInfos = [] := by
  have helems := h.elems
  rw [h.noInfos] at helems
  exact (Option.some.inj helems).symm

theorem Bare.withSys (h : r.Bare) {s : Sys} {l : List (Option ConnParam)}
    (hpkt : s.work.pubPacket = none) (hinfos : s.work.msgInfos = []) :
    Bare ⟨s, r.packet, r.infos, l⟩ :=
  bare_mk h.packet h.noPacket h.infos h.noInfos hpkt hinfos

theorem Owned.withSys (h : r.Owned) {s : Sys} {l : List (Option ConnParam)}
    (hpkt : s.work.pubPacket.isSome = r.sys.work.pubPacket.isSome)
    (hinfos : s.work.msgInfos = r.sys.work.msgInfos) : Owned ⟨s, r.packet, r.infos, l⟩ where
  packet := h.packet
  infos := h.infos
  isSome := hpkt.trans h.isSome
  elems := h.elems.trans (congrArg some hinfos.symm)

theorem allocPacket_eq (h : r.packet.ptr = none) :
    r.allocPacket =
      some { r with packet := ⟨r.packet.heap.alloc (), some r.packet.heap.size⟩ } := by
  rw [allocPacket, OwnerSlot.create_of_null h]
  rfl

theorem usePacket_eq (h : r.packet.Sole) (hp : r.packet.ptr.isSome = true) :
    r.usePacket = some r := by
  obtain ⟨p, hp⟩ := Option.isSome_iff_exists.mp hp
  obtain ⟨x, hx⟩ := Option.isSome_iff_exists.mp (h.isSome_read hp)
  rw [usePacket, hp, Option.bind_some, hx]
  rfl

theorem usePacketIf_eq (h : r.packet.Sole) {b : Bool}
    (hp : b = true → r.packet.ptr.isSome = true) : r.usePacketIf b = some r := by
  unfold usePacketIf
  split_ifs with hb
  · exact usePacket_eq h (hp hb)
  · rfl

theorem Owned.useInfos_eq (h : r.Owned) : r.useInfos = some r := by
  rw [useInfos, h.elems]
  rfl

theorem freeInfos_of_null (h : r.infos.ptr = none) : r.freeInfos = some r := by
  rw [freeInfos, h]
  change some { r with infos := ⟨r.infos.heap, none⟩ } = some r
  rw [← h]

/-- What a refused PUBLISH does: the vector is freed and not cleared, but there is none. -/
theorem exists_freeRefused (hp : p.Sole) (hnull : i.ptr = none) :
    ∃ p', p'.Sole ∧ p'.ptr = none ∧ ∀ s l,
      (freePacket ⟨s, p, i, l⟩).bind (fun t => t.freeInfos.bind (fun t => some t.connParamFree)) =
        some (connParamFree ⟨s, p', i, l⟩) := by
  obtain ⟨p', hfree, hsole, hpnull⟩ := hp.exists_releaseIf
  refine ⟨p', hsole, hpnull, fun s l => ?_⟩
  have hnull' : (⟨s, p', i, l⟩ : WorkRes).infos.ptr = none := hnull
  rw [freePacket, hfree, Option.map_some, Option.bind_some, freeInfos_of_null hnull',
    Option.bind_some]

theorem exists_freeInfos (h : i.Sole) :
    ∃ i' : OwnerSlot (List ℕ), i'.Sole ∧ i'.ptr = none ∧ ∀ s p l,
      freeInfos ⟨s, p, i, l⟩ = some ⟨s, p, ⟨i'.heap, i.ptr⟩, l⟩ := by
  obtain ⟨i', hi, hsole, hnull⟩ := h.exists_releaseIf
  refine ⟨i', hsole, hnull, fun s p l => ?_⟩
  rw [freeInfos]
  cases hp : i.ptr with
  | none =>
    rw [OwnerSlot.releaseIf, hp] at hi
    obtain rfl : i = i' := Option.some.inj hi
    rfl
  | some q =>
    rw [OwnerSlot.releaseIf, hp, Option.isSome_some, if_pos rfl, OwnerSlot.release, hp,
      Option.bind_some] at hi
    obtain ⟨h', hfree, rfl⟩ := Option.map_eq_some_iff.mp hi
    rw [OwnedHeap.freeOpt, hfree]
    rfl

/-- Packet and vector are freed and the pointers cleared, before whatever comes then. -/
theorem exists_freeBoth (hp : p.Sole) (hi : i.Sole) :
    ∃ p' i', p'.Sole ∧ p'.ptr = none ∧ i'.Sole ∧ i'.ptr = none ∧
      ∀ s l (f : WorkRes → Option WorkRes),
        (freePacket ⟨s, p, i, l⟩).bind (fun t => t.freeInfos.bind (fun t => f t.clearInfos)) =
          f ⟨s, p', i', l⟩ := by
  obtain ⟨p', hfree, hpsole, hpnull⟩ := hp.exists_releaseIf
  obtain ⟨i', hisole, hinull, hfreeInfos⟩ := exists_freeInfos hi
  refine ⟨p', i', hpsole, hpnull, hisole, hinull, fun s l f => ?_⟩
  rw [freePacket, hfree, Option.map_some, Option.bind_some, hfreeInfos, Option.bind_some,
    clearInfos, ← hinull]

theorem exists_foreachClient (hi : r.infos.Sole) {xs : List ℕ}
    (hxs : CVector.elems r.infos.heap r.infos.ptr = some xs) (clients : List ℕ) :
    ∃ i : OwnerSlot (List ℕ), r.foreachClient a clients = some { r with infos := i } ∧ i.Sole ∧
      CVector.elems i.heap i.ptr = some (NanoMQ.foreachClient clients xs) := by
  unfold foreachClient NanoMQ.foreachClient
  split_ifs with hnull
  · rw [hnull.1, List.filter_nil, List.append_nil]
    exact ⟨r.infos, rfl, hi, hxs⟩
  · obtain ⟨h₁, p₁, hgrow, hread₁, hmoved₁⟩ := CVector.exists_grow a.moves hxs
    obtain ⟨h₂, p₂, hpush, hread₂, hmoved₂⟩ :=
      CVector.exists_pushAll a.moves hread₁ (clients.filter (· ≠ 0))
    refine ⟨⟨h₂, some p₂⟩, ?_, hi.moved hread₂ (hmoved₁.trans hmoved₂), hread₂⟩
    rw [hgrow, Option.bind_some, hpush]
    rfl

theorem exists_foreachBoth (hi : r.infos.Sole) {xs : List ℕ}
    (hxs : CVector.elems r.infos.heap r.infos.ptr = some xs) (clients shared : List ℕ) :
    ∃ i : OwnerSlot (List ℕ), i.Sole ∧
      CVector.elems i.heap i.ptr =
        some (NanoMQ.foreachClient shared (NanoMQ.foreachClient clients xs)) ∧
      ∀ f : WorkRes → Option (ReasonCode × WorkRes),
        ((r.foreachClient a clients).bind (fun t => (t.foreachClient a shared).bind f)) =
          f { r with infos := i } := by
  obtain ⟨i₁, hi₁, hsole₁, helems₁⟩ := exists_foreachClient (a := a) hi hxs clients
  obtain ⟨i₂, hi₂, hsole₂, helems₂⟩ :=
    exists_foreachClient (r := { r with infos := i₁ }) (a := a) hsole₁ helems₁ shared
  refine ⟨i₂, hsole₂, helems₂, fun f => ?_⟩
  rw [hi₁, Option.bind_some, hi₂, Option.bind_some]

end Operations

section HandlePub

variable {nng : Nng} {conf : Conf} {proto : ProtoVer} {isEvent : Bool}

def KeepsPacket (s t : PubState) : Prop :=
  s.work.pubPacket.isSome = true → t.work.pubPacket.isSome = true

theorem keepsPacket_aliasStep (conf : Conf) (proto : ProtoVer) (s : PubState) :
    KeepsPacket s (aliasStep conf proto s).2 := by
  intro hs
  rcases h : aliasStep conf proto s with ⟨o, t⟩
  obtain ⟨rfl, -⟩ | ⟨v, -, -, hvalue⟩ := aliasStep_cases h
  · exact hs
  · have ht : t = (aliasValueStep conf v.asU16 s).2 := (congrArg Prod.snd hvalue).symm
    rw [ht, aliasValueStep]
    split_ifs
    · exact hs
    · exact hs
    · cases s.store.atpairs s.work.pid v.asU16 with
      | none => exact hs
      | some tp => rfl

theorem keepsPacket_authHttpStep (conf : Conf) (env : PubEnv) (s : PubState) :
    KeepsPacket s (authHttpStep conf env s).2 := by
  intro hs
  unfold authHttpStep
  cases topicQueueInit env s.packet.topicBody with
  | none => split_ifs <;> exact hs
  | some queue => split_ifs <;> exact hs

theorem keepsPacket_handlePubRetain (nng : Nng) (conf : Conf) (env : PubEnv) (topic : Bytes)
    (s : PubState) : KeepsPacket s (handlePubRetain nng conf env topic s) := by
  intro hs
  unfold handlePubRetain handlePubRetainSqlite
  rcases retainMsg nng env s with ⟨_ | m, pkt⟩ <;> dsimp only <;> split_ifs <;>
    first
      | exact hs
      | rfl

/-- A work that is not of a bridge has decoded a packet, whatever comes then. -/
theorem isSome_resolve (nng : Nng) (conf : Conf) (env : PubEnv) (proto : ProtoVer) (isEvent : Bool)
    {s : PubState} (hs : s.work.proto ≠ .mqttBridge) :
    (resolve nng conf env proto isEvent s).2.work.pubPacket.isSome = true := by
  have htrans : ∀ {s t u : PubState}, KeepsPacket s t → KeepsPacket t u → KeepsPacket s u :=
    fun h₁ h₂ hs => h₂ (h₁ hs)
  have htype : ∀ s : PubState, KeepsPacket s (typeStep s).2 := by
    intro s hs
    unfold typeStep
    split_ifs <;> exact hs
  have htopic : ∀ s : PubState, KeepsPacket s (topicStep s).2 := by
    intro s hs
    unfold topicStep
    split_ifs <;> exact hs
  have hrest := andThen_rel (R := KeepsPacket) htrans htype
    (andThen_rel (R := KeepsPacket) htrans (keepsPacket_authHttpStep conf env)
      (andThen_rel (R := KeepsPacket) htrans (keepsPacket_aliasStep conf proto) htopic))
  have hdecode : (decodeStep nng proto isEvent s).2.work.pubPacket.isSome = true := by
    unfold decodeStep
    rw [if_pos (Or.inl hs)]
    dsimp only
    split_ifs <;> rfl
  unfold resolve
  rcases hd : decodeStep nng proto isEvent s with ⟨_ | c, t⟩
  · rw [hd] at hdecode
    rw [andThen_of_go hd]
    exact hrest t hdecode
  · rw [hd] at hdecode
    rw [andThen_of_return hd]
    exact hdecode

variable {r : WorkRes} {a : Wake}

/-- A call of `handle_pub` allocates a packet and, where it comes so far, fills the vector. -/
theorem exists_handlePub (nng : Nng) (conf : Conf) (a : Wake) (proto : ProtoVer) (isEvent : Bool)
    (h : r.Bare) (hproto : r.sys.work.proto = .mqttBroker) :
    let out := Sys.handlePub nng conf a.env proto isEvent r.sys
    ∃ r', r.handlePub nng conf a proto isEvent = some (out.1, r') ∧ r'.sys = out.2 ∧ r'.Held ∧
      r'.released = r.released ∧ (out.1 ≠ ReasonCode.success → r'.infos.ptr = none) := by
  have hnull : r.clearInfos.packet.ptr = none := h.noPacket
  have hinfos : r.infos = ⟨r.infos.heap, none⟩ := by rw [← h.noInfos]
  have hpsole := h.packet.alloc h.noPacket ()
  have hisole : (⟨r.infos.heap, none⟩ : OwnerSlot (List ℕ)).Sole := hinfos ▸ h.infos
  have hbridge : (pubStart r.sys.store r.sys.work).work.proto ≠ .mqttBridge := by
    change r.sys.work.proto ≠ _
    rw [hproto]
    decide
  have hsome := isSome_resolve nng conf a.env.pub proto isEvent hbridge
  dsimp only
  unfold handlePub
  rw [allocPacket_eq hnull, Option.bind_eq_bind, Option.bind_some]
  dsimp only [clearInfos]
  rcases handlePub_cases nng conf a.env.pub proto isEvent r.sys.store r.sys.work with
    ⟨c, t, hres, heq⟩ | ⟨t, hres, hacl, heq⟩ | ⟨t, hres, hacl, heq⟩
  · rw [hres] at hsome
    rw [hres, Sys.handlePub_eq heq]
    have hempty := congrArg some (msgInfos_of_resolve hres).symm
    exact ⟨_, rfl, rfl, ⟨⟨hpsole, hisole, hsome, hempty⟩, rfl⟩, rfl, fun _ => rfl⟩
  · rw [hres] at hsome
    rw [hres, Sys.handlePub_eq heq]
    dsimp only
    rw [if_pos hacl]
    have hempty := congrArg some (msgInfos_of_resolve hres).symm
    exact ⟨_, rfl, rfl, ⟨⟨hpsole, hisole, hsome, hempty⟩, rfl⟩, rfl, fun _ => rfl⟩
  · rw [hres] at hsome
    rw [hres, Sys.handlePub_eq heq]
    dsimp only
    rw [if_neg hacl]
    have hstart : CVector.elems r.infos.heap none = some t.work.msgInfos :=
      congrArg some (msgInfos_of_resolve hres).symm
    obtain ⟨i, hsole, helems, hboth⟩ :=
      exists_foreachBoth (a := a) (r := ⟨r.sys,
        ⟨r.packet.heap.alloc (), some r.packet.heap.size⟩, ⟨r.infos.heap, none⟩, r.released⟩)
        hisole hstart (nng.dbtreeFindClients t.store.db t.topic)
        (nng.dbtreeFindSharedClients t.store.db t.topic)
    refine ⟨_, hboth _, rfl, ⟨⟨hpsole, hsole, ?_, ?_⟩, rfl⟩, rfl, fun hne => absurd rfl hne⟩
    · change (routeStep nng conf a.env.pub t).2.work.pubPacket.isSome = true
      rw [routeStep_eq]
      exact keepsPacket_handlePubRetain nng conf a.env.pub t.topic (routed nng t) hsome
    · change CVector.elems i.heap i.ptr = some (routeStep nng conf a.env.pub t).2.work.msgInfos
      rw [routeStep_eq, (frame_handlePubRetain nng conf a.env.pub t.topic (routed nng t)).work]
      exact helems

end HandlePub

end WorkRes

end NanoMQ
