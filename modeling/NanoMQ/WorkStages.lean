import NanoMQ.Pending
import NanoMQ.WorkIntake

/-!
# The stages of a work

In which states a work of the broker holds a packet and a vector: there are none in RECV and CLOSE,
there is a packet in END and in WAIT with a publication, and SEND takes the work with and without
one. Every step leads from one of these stages to another, without a fault, and does what the step
of `serverCb` does.
-/

namespace NanoMQ

open ByteBuffer

namespace WorkRes

section Delivery

variable {nng : Nng} {conf : Conf} {a : Wake} {r : WorkRes}

theorem work_encodeAndDeliver (nng : Nng) (s : Sys) :
    let w := (encodeAndDeliver nng s).work
    w = { s.work with msg := w.msg, pubPacket := w.pubPacket, pid := w.pid } ∧
      w.pubPacket.isSome = true := by
  unfold encodeAndDeliver
  dsimp only
  split_ifs <;> exact ⟨rfl, rfl⟩

/-- A publication leaves WAIT for SEND, or for RECV with nothing left of it. -/
theorem exists_wait (nng : Nng) (conf : Conf) (h : r.Held)
    (htype : r.msgType = PacketType.publish) (hok : a.env.result = .ok) :
    ∃ r', r.wait nng conf a = some r' ∧ r'.sys = waitStep nng conf a.env r.sys ∧
      (r'.sys.work.state = .send ∧ r'.Held ∧ r'.released = r.released ∧
          r'.sys.work.cparam = r.sys.work.cparam ∨
        r'.sys.work.state = .recv ∧ r'.Bare ∧
          r'.released = r.released ++ [r.sys.work.cparam]) := by
  obtain ⟨hwork, hsome⟩ := work_encodeAndDeliver nng r.sys
  have hcparam : (encodeAndDeliver nng r.sys).work.cparam = r.sys.work.cparam := by rw [hwork]
  unfold wait
  dsimp only
  rw [if_neg (not_not.mpr htype), if_neg (not_not.mpr hok), usePacket_eq h.packet h.hasPacket,
    h.useInfos_eq, waitStep_ok htype hok]
  dsimp only [Option.bind_eq_bind, Option.bind_some]
  split_ifs
  · refine ⟨_, rfl, rfl, Or.inl ⟨rfl, ⟨?_, h.hasPacket⟩, rfl, hcparam⟩⟩
    refine h.toOwned.withSys ?_ ?_
    · rw [h.isSome, h.hasPacket]
      exact hsome
    · change (encodeAndDeliver nng r.sys).work.msgInfos = _
      rw [hwork]
  · obtain ⟨p, i, hp, hpnull, hi, hinull, hfree⟩ := exists_freeBoth h.packet h.infos
    refine ⟨_, hfree _ _ _, rfl, Or.inr ⟨rfl, bare_mk hp hpnull hi hinull rfl rfl, ?_⟩⟩
    exact congrArg (fun c => r.released ++ [c]) hcparam

/-- SEND lets go of everything. -/
theorem exists_send (nng : Nng) (conf : Conf) (h : r.Owned)
    (hreads : r.sys.work.flag = .publish → r.packet.ptr.isSome = true) :
    ∃ r', r.send nng conf = some r' ∧ r'.sys = sendStep nng conf r.sys ∧
      r'.sys.work.state = .recv ∧ r'.Bare ∧ r'.released = r.released ++ [r.sys.work.cparam] := by
  have hread : r.usePacketIf (sendReads conf r.sys.work) = some r := by
    apply usePacketIf_eq h.packet
    intro hflag
    have hpub := (Bool.and_eq_true_iff.mp hflag).1
    exact hreads (of_decide_eq_true hpub)
  obtain ⟨p, i, hp, hpnull, hi, hinull, hfree⟩ := exists_freeBoth h.packet h.infos
  unfold send
  rw [hread, Option.bind_eq_bind, Option.bind_some]
  exact ⟨_, hfree _ _ (fun t => some t.connParamFree), rfl, rfl,
    bare_mk hp hpnull hi hinull rfl rfl, rfl⟩

end Delivery

section End

variable {nng : Nng} {conf : Conf} {a : Wake} {r : WorkRes}

theorem exists_finWill (hnng : nng.ComposesPublish) (conf : Conf) (a : Wake) (h : r.Bare)
    (hproto : r.sys.work.proto = .mqttBroker) :
    ∃ r', r.finWill nng conf a = some r' ∧
      r'.sys = (match willMsg nng r.sys.work.cparam with
        | some m => publishWill nng conf a.env m r.sys
        | none => r.sys.goto .recv) ∧
      (r'.sys.work.state = .recv ∧ r'.Bare ∨
        r'.sys.work.state = .wait ∧ r'.msgType = PacketType.publish ∧ r'.Held) := by
  unfold finWill
  cases hwill : willMsg nng r.sys.work.cparam with
  | none =>
    exact ⟨_, rfl, rfl, Or.inl ⟨rfl, h.withSys h.pubPacket h.msgInfos⟩⟩
  | some m =>
    obtain ⟨t, ht, hsys, hheld, hmsg⟩ := exists_publishEvent nng conf a
      (protoverOf r.sys.work.cparam) false h hproto (s := r.sys.loadWill m) rfl
    dsimp only
    rw [ht, publishWill, ← hsys, Option.bind_eq_bind, Option.bind_some]
    refine ⟨_, rfl, rfl, Or.inr ⟨rfl, ?_, ⟨?_, hheld.hasPacket⟩⟩⟩
    · change (t.sys.work.msg.getD Msg.alloc).getType = _
      rw [hmsg]
      exact getType_willMsg hnng hwill
    · exact hheld.toOwned.withSys rfl rfl

/-- END frees the event of the lost connection before the will. A message that is no publication
keeps it where it is. -/
theorem exists_fin (hnng : nng.ComposesPublish) (conf : Conf) (a : Wake) (h : r.Held)
    (hproto : r.sys.work.proto = .mqttBroker) :
    ∃ r', r.fin nng conf a = some r' ∧ r'.sys = endStep nng conf a.env r.sys ∧
      (r' = r ∨ r'.sys.work.state = .recv ∧ r'.Bare ∨
        r'.sys.work.state = .wait ∧ r'.msgType = PacketType.publish ∧ r'.Held) := by
  have hread : r.usePacketIf (finReads conf r.sys.work) = some r :=
    usePacketIf_eq h.packet (fun _ => h.hasPacket)
  have horigin : (endEvent nng conf r.sys).work.origin = r.sys.work.origin := origin_endEvent r.sys
  have hbroker : (endEvent nng conf r.sys).work.proto = .mqttBroker :=
    (congrArg Prod.snd horigin).trans hproto
  obtain ⟨p, i, hp, hpnull, hi, hinull, hfree⟩ := exists_freeBoth h.packet h.infos
  have hbare : Bare ⟨endEvent nng conf r.sys, p, i, r.released⟩ :=
    bare_mk hp hpnull hi hinull rfl rfl
  unfold fin endStep msgType
  by_cases htype : (r.sys.work.msg.getD Msg.alloc).getType = PacketType.publish
  · obtain ⟨r', hr', hsys, hstage⟩ := exists_finWill hnng conf a hbare hbroker
    rw [if_pos htype, if_pos htype, h.useInfos_eq, Option.bind_eq_bind, Option.bind_some, hread,
      Option.bind_some]
    exact ⟨r', (hfree _ _ _).trans hr', hsys, Or.inr hstage⟩
  · rw [if_neg htype, if_neg htype]
    exact ⟨r, rfl, rfl, Or.inl rfl⟩

end End

inductive Stage (r : WorkRes) : Prop
  | init (state : r.sys.work.state = .init) (bare : r.Bare)
  | recv (state : r.sys.work.state = .recv) (bare : r.Bare)
  | other (state : r.sys.work.state = .wait) (type : r.msgType ≠ PacketType.publish) (bare : r.Bare)
  | wait (state : r.sys.work.state = .wait) (type : r.msgType = PacketType.publish) (held : r.Held)
  | send (state : r.sys.work.state = .send) (owned : r.Owned)
      (reads : r.sys.work.flag = .publish → r.packet.ptr.isSome = true)
  | fin (state : r.sys.work.state = .fin) (held : r.Held)
  | close (state : r.sys.work.state = .close) (bare : r.Bare)

section Stages

variable {nng : Nng} {conf : Conf} {junk : UInt8} {a : Wake} {r : WorkRes}

theorem exists_recvMsg (hnotify : nng.NotifiesPublish) (conf : Conf) (junk : UInt8) (a : Wake)
    {m : Msg} (hagree : m.HeaderAgrees) (h : r.Bare) (hproto : r.sys.work.proto = .mqttBroker) :
    ∃ r', r.recvMsg nng conf junk a m = some r' ∧
      r'.sys = NanoMQ.recvMsg nng conf (brokerHandlers nng conf junk) a.env m r.sys ∧
      r'.Stage := by
  have hload : Bare { r with sys := { r.sys with work := r.sys.work.load m } } :=
    h.withSys h.pubPacket h.msgInfos
  have hother : (m.cmdType ≠ .publish ∧ m.cmdType ≠ .disconnectEv) → Stage { r with
      sys := Sys.goto .wait { r.sys with work := r.sys.work.load m } } := by
    rintro ⟨hpub, hev⟩
    refine Stage.other rfl (fun htype => ?_) (hload.withSys h.pubPacket h.msgInfos)
    exact (hagree.mp htype).elim hpub hev
  unfold recvMsg NanoMQ.recvMsg
  cases hk : m.cmdType with
  | subscribe =>
    obtain ⟨r', hr', hsys, hbare, hstate⟩ := exists_recvSubscribe nng conf junk a hload
    refine ⟨r', hr', hsys, ?_⟩
    rcases hstate with ⟨hclose, -⟩ | ⟨hsend, -⟩
    · exact .close hclose hbare
    · refine .send hsend hbare.toOwned (fun hflag => ?_)
      rw [hsys, (work_recvSubscribe nng conf junk a.env _).1] at hflag
      change m.cmdType = _ at hflag
      rw [hk] at hflag
      cases hflag
  | unsubscribe =>
    refine ⟨_, rfl, rfl, .send rfl (bare_recvUnsubscribe nng conf junk a hload).toOwned ?_⟩
    intro hflag
    change m.cmdType = _ at hflag
    rw [hk] at hflag
    cases hflag
  | publish =>
    obtain ⟨r', hr', hsys, ⟨hclose, hbare, -⟩ | ⟨hwait, hheld, -, -, htype⟩⟩ :=
      exists_recvPublish nng conf a m h hproto
    · exact ⟨r', hr', hsys, .close hclose hbare⟩
    · exact ⟨r', hr', hsys, .wait hwait (htype.trans (hagree.mpr (Or.inl hk))) hheld⟩
  | connack =>
    obtain ⟨r', hr', hsys, hwait, htype, hheld⟩ :=
      exists_recvConnack hnotify conf a m hload hproto
    exact ⟨r', hr', hsys, .wait hwait htype hheld⟩
  | disconnectEv =>
    obtain ⟨r', hr', hsys, hstate, htype, hheld⟩ :=
      exists_recvDisconnect nng conf a (hagree.mpr (Or.inr hk)) hload hproto
    refine ⟨r', hr', hsys, ?_⟩
    rcases hstate with hfin | hwait
    · exact .fin hfin hheld
    · exact .wait hwait htype hheld
  | none | publishV5 | suback | unsuback | pubcomp | other =>
    exact ⟨_, rfl, rfl, hother ⟨by rw [hk]; exact nofun, by rw [hk]; exact nofun⟩⟩

/-- Every step leads from stage to stage. -/
theorem exists_serverCb (hnotify : nng.NotifiesPublish) (hwill : nng.ComposesPublish) (conf : Conf)
    (junk : UInt8) (h : r.Stage) (hproto : r.sys.work.proto = .mqttBroker)
    (hagree : r.sys.work.state = .recv → ∀ m, a.env.msg = some m → m.HeaderAgrees) :
    ∃ r', r.serverCb nng conf junk a = some r' ∧
      r'.sys = NanoMQ.serverCb nng conf (brokerHandlers nng conf junk) a.env r.sys ∧ r'.Stage := by
  unfold serverCb NanoMQ.serverCb
  cases h with
  | init hstate hbare =>
    rw [hstate]
    exact ⟨_, rfl, rfl, .recv rfl (hbare.withSys hbare.pubPacket hbare.msgInfos)⟩
  | recv hstate hbare =>
    rw [hstate]
    dsimp only [recv, recvStep]
    cases hacc : accepted a.env.result r.sys.work a.env.msg with
    | none => exact ⟨r, rfl, rfl, .recv hstate hbare⟩
    | some m =>
      have hmsg : a.env.msg = some m := by
        unfold accepted at hacc
        split_ifs at hacc
        exact hacc
      rw [Option.bind_some, takeMsg_broker nng conf a.env.result hproto m]
      exact exists_recvMsg hnotify conf junk a (hagree hstate m hmsg) hbare hproto
  | other hstate htype hbare =>
    rw [hstate]
    have hstep : waitStep nng conf a.env r.sys = _ := if_pos htype
    dsimp only [wait]
    rw [if_pos htype, hstep]
    exact ⟨_, rfl, rfl, .recv rfl (hbare.withSys hbare.pubPacket hbare.msgInfos)⟩
  | wait hstate htype hheld =>
    rw [hstate]
    dsimp only
    by_cases hok : a.env.result = .ok
    · obtain ⟨r', hr', hsys, ⟨hsend, hheld', -, -⟩ | ⟨hrecv, hbare, -⟩⟩ :=
        exists_wait nng conf hheld htype hok
      · exact ⟨r', hr', hsys, .send hsend hheld'.toOwned (fun _ => hheld'.hasPacket)⟩
      · exact ⟨r', hr', hsys, .recv hrecv hbare⟩
    · have hstep : waitStep nng conf a.env r.sys = r.sys.emit [.fatal] :=
        (if_neg (not_not.mpr htype)).trans (if_pos hok)
      dsimp only [wait]
      rw [if_neg (not_not.mpr htype), if_pos hok, hstep]
      exact ⟨_, rfl, rfl, .wait hstate htype ⟨hheld.toOwned.withSys rfl rfl, hheld.hasPacket⟩⟩
  | send hstate howned hreads =>
    rw [hstate]
    obtain ⟨r', hr', hsys, hrecv, hbare, -⟩ := exists_send nng conf howned hreads
    exact ⟨r', hr', hsys, .recv hrecv hbare⟩
  | fin hstate hheld =>
    rw [hstate]
    obtain ⟨r', hr', hsys, hcases⟩ := exists_fin hwill conf a hheld hproto
    refine ⟨r', hr', hsys, ?_⟩
    rcases hcases with rfl | ⟨hrecv, hbare⟩ | ⟨hwait, htype, hheld'⟩
    · exact .fin hstate hheld
    · exact .recv hrecv hbare
    · exact .wait hwait htype hheld'
  | close hstate hbare =>
    rw [hstate]
    exact ⟨_, rfl, rfl, .recv rfl (hbare.withSys hbare.pubPacket hbare.msgInfos)⟩

end Stages

end WorkRes

end NanoMQ
