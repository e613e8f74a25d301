import NanoMQ.WorkAccounts

/-!
# What RECV does to the packet and the vector

A work in RECV has neither. A SUBSCRIBE or UNSUBSCRIBE leaves it so, a PUBLISH that is refused has
given back what it took, and every other message that is published leaves a packet for WAIT or END.
-/

namespace NanoMQ

open ByteBuffer

namespace WorkRes

section Subscribe

variable {nng : Nng} {conf : Conf} {junk : UInt8} {a : Wake} {r : WorkRes}

theorem exists_sendRetained (nng : Nng) (conf : Conf) (clock : ℕ) (ms : List Msg) (h : r.Bare) :
    ∃ r', r.sendRetained nng conf clock ms = some r' ∧ r'.sys = r.sys ∧ r'.Bare ∧
      r'.released = r.released := by
  induction ms generalizing r with
  | nil => exact ⟨r, rfl, rfl, h, rfl⟩
  | cons m ms ih =>
    rw [sendRetained]
    split_ifs
    · -- the packet of the message is freed before the next one is looked at
      obtain ⟨p, i, hp, hpnull, hi, hinull, hfree⟩ :=
        exists_freeBoth (h.packet.alloc h.noPacket ()) h.infos
      have hbare : Bare ⟨r.sys, p, i, r.released⟩ :=
        bare_mk hp hpnull hi hinull h.pubPacket h.msgInfos
      obtain ⟨r', hr', hrest⟩ := ih hbare
      refine ⟨r', ?_, hrest⟩
      rw [allocPacket_eq h.noPacket]
      exact (hfree _ _ _).trans hr'
    · exact ⟨r, rfl, rfl, h, rfl⟩

/-- A SUBSCRIBE leaves no packet and no vector. One that is refused gives its connection parameters
back at once, the others do so in SEND. -/
theorem exists_recvSubscribe (nng : Nng) (conf : Conf) (junk : UInt8) (a : Wake) (h : r.Bare) :
    ∃ r', r.recvSubscribe nng conf junk a = some r' ∧
      r'.sys = NanoMQ.recvSubscribe (brokerHandlers nng conf junk) a.env r.sys ∧ r'.Bare ∧
      (r'.sys.work.state = .close ∧ r'.released = r.released ++ [r.sys.work.cparam] ∨
        r'.sys.work.state = .send ∧ r'.released = r.released) := by
  obtain ⟨hwork, hstate⟩ := work_recvSubscribe nng conf junk a.env r.sys
  unfold recvSubscribe
  generalize NanoMQ.recvSubscribe (brokerHandlers nng conf junk) a.env r.sys = s at hwork hstate
  have hpkt : s.work.pubPacket = none := by
    rw [hwork]
    exact h.pubPacket
  have hinfos : s.work.msgInfos = [] := by
    rw [hwork]
    exact h.msgInfos
  have hcparam : s.work.cparam = r.sys.work.cparam := by rw [hwork]
  dsimp only
  rcases hstate with ⟨hstate, hcode⟩ | ⟨hstate, hcode⟩
  · rw [if_pos hcode]
    refine ⟨_, rfl, rfl, h.withSys hpkt hinfos, Or.inl ⟨hstate, ?_⟩⟩
    rw [connParamFree, hcparam]
  · rw [if_neg (not_not.mpr hcode)]
    obtain ⟨r', hr', hsys, hbare, hrel⟩ := exists_sendRetained nng conf a.env.pub.clock
      (msgRet nng conf a r.sys) (h.withSys hpkt hinfos (l := r.released))
    refine ⟨r', hr', hsys, hbare, Or.inr ⟨?_, hrel⟩⟩
    rw [hsys]
    exact hstate

theorem work_recvUnsubscribe (nng : Nng) (conf : Conf) (junk : UInt8) (env : StepEnv) (s : Sys) :
    (NanoMQ.recvUnsubscribe (brokerHandlers nng conf junk) env s).work =
      { s.work with msg := none, state := .send } := rfl

theorem bare_recvUnsubscribe (nng : Nng) (conf : Conf) (junk : UInt8) (a : Wake) (h : r.Bare) :
    (r.recvUnsubscribe nng conf junk a).Bare := by
  have hwork := work_recvUnsubscribe nng conf junk a.env r.sys
  unfold recvUnsubscribe
  refine h.withSys ?_ ?_
  · rw [hwork]
    exact h.pubPacket
  · rw [hwork]
    exact h.msgInfos

end Subscribe

section Publish

variable {nng : Nng} {conf : Conf} {a : Wake} {r : WorkRes}

/-- What a call of `handle_pub` does not change of the work. -/
theorem work_sysHandlePub (nng : Nng) (conf : Conf) (env : StepEnv) (proto : ProtoVer)
    (isEvent : Bool) (s : Sys) :
    let w := (Sys.handlePub nng conf env proto isEvent s).2.work
    w = { s.work with msgInfos := w.msgInfos, pubPacket := w.pubPacket } :=
  work_handlePub nng conf env.pub proto isEvent s.store s.work

/-- A PUBLISH that is refused has everything back when it goes to CLOSE. The others go to WAIT with
a packet. -/
theorem exists_recvPublish (nng : Nng) (conf : Conf) (a : Wake) (m : Msg) (h : r.Bare)
    (hproto : r.sys.work.proto = .mqttBroker) :
    ∃ r', r.recvPublish nng conf a m = some r' ∧
      r'.sys = recvPublishStep nng conf a.env m r.sys ∧
      (r'.sys.work.state = .close ∧ r'.Bare ∧ r'.released = r.released ++ [m.connParam] ∨
        r'.sys.work.state = .wait ∧ r'.Held ∧ r'.released = r.released ∧
          r'.sys.work.cparam = m.connParam ∧ r'.msgType = m.getType) := by
  have hbare : Bare { r with sys := { r.sys with work := r.sys.work.loadPublish m } } :=
    h.withSys h.pubPacket h.msgInfos
  obtain ⟨t, ht, hsys, hheld, hrel, hnull⟩ :=
    exists_handlePub nng conf a (r.sys.work.loadPublish m).protoVer false hbare hproto
  have hwork := work_sysHandlePub nng conf a.env (r.sys.work.loadPublish m).protoVer false
    { r.sys with work := r.sys.work.loadPublish m }
  rw [← hsys] at hwork
  have hbroker : t.sys.work.proto = .mqttBroker := by
    rw [hwork]
    exact hproto
  have hcparam : t.sys.work.cparam = m.connParam := by rw [hwork]; rfl
  have hmsg : t.sys.work.msg = some (m.stamp (protoverOf m.connParam)) := by rw [hwork]; rfl
  have hstep : recvPublishStep nng conf a.env m r.sys = afterPublish { t.sys with
      work := { t.sys.work with code := (Sys.handlePub nng conf a.env
        (r.sys.work.loadPublish m).protoVer false
        { r.sys with work := r.sys.work.loadPublish m }).1 } } := by
    rw [hsys]
    rfl
  rw [hstep]
  unfold recvPublish
  dsimp only
  rw [ht]
  generalize (Sys.handlePub nng conf a.env (r.sys.work.loadPublish m).protoVer false
    { r.sys with work := r.sys.work.loadPublish m }).1 = code at hnull
  rw [Option.bind_eq_bind, Option.bind_some]
  dsimp only
  rw [afterPublish_broker (s := ⟨{ t.sys.work with code := code }, t.sys.store, t.sys.log⟩) hbroker]
  split_ifs with hcode
  · have hinfos := hnull hcode
    obtain ⟨p, hp, hpnull, hfree⟩ := exists_freeRefused hheld.packet hinfos
    refine ⟨_, hfree _ _, rfl, Or.inl ⟨rfl, ?_, congrArg₂ (· ++ [·]) hrel hcparam⟩⟩
    exact bare_mk hp hpnull hheld.infos hinfos rfl rfl
  · refine ⟨_, rfl, rfl, Or.inr ⟨rfl, ⟨?_, hheld.hasPacket⟩, hrel, hcparam, ?_⟩⟩
    · exact hheld.toOwned.withSys rfl rfl
    · change (t.sys.work.msg.getD Msg.alloc).getType = m.getType
      rw [hmsg]
      rfl

end Publish

section Events

variable {nng : Nng} {conf : Conf} {a : Wake} {r : WorkRes}

theorem exists_publishEvent (nng : Nng) (conf : Conf) (a : Wake) (proto : ProtoVer) (isEvent : Bool)
    (h : r.Bare) (hproto : r.sys.work.proto = .mqttBroker) {s : Sys} {m : Msg}
    (hs : s.work = { r.sys.work with flag := s.work.flag, msg := some m }) :
    ∃ r', handlePub nng conf a proto isEvent { r with sys := s } =
        some ((Sys.handlePub nng conf a.env proto isEvent s).1, r') ∧
      r'.sys = (Sys.handlePub nng conf a.env proto isEvent s).2 ∧ r'.Held ∧
      r'.sys.work.msg = some m := by
  have hbare : Bare { r with sys := s } := by
    refine h.withSys ?_ ?_
    · rw [hs]
      exact h.pubPacket
    · rw [hs]
      exact h.msgInfos
  have hbroker : s.work.proto = .mqttBroker := by
    rw [hs]
    exact hproto
  obtain ⟨t, ht, hsys, hheld, -, -⟩ := exists_handlePub nng conf a proto isEvent hbare hbroker
  refine ⟨t, ht, hsys, hheld, ?_⟩
  rw [hsys, work_sysHandlePub, hs]

theorem exists_recvConnack (hnotify : nng.NotifiesPublish) (conf : Conf) (a : Wake) (m : Msg)
    (h : r.Bare) (hproto : r.sys.work.proto = .mqttBroker) :
    ∃ r', r.recvConnack nng conf a m = some r' ∧
      r'.sys = NanoMQ.recvConnack nng conf a.env m r.sys ∧ r'.sys.work.state = .wait ∧
      r'.msgType = PacketType.publish ∧ r'.Held := by
  unfold recvConnack
  dsimp only
  obtain ⟨t, ht, hsys, hheld, hmsg⟩ := exists_publishEvent nng conf a ProtoVer.v311 true h hproto
    (s := ⟨{ (hookEntry nng conf (r.sys.emit [.reply r.sys.work.pid m])).work with
      msg := some (nng.nanoMsgNotify r.sys.work.cparam (byteAt m.body 1) 0 true) }, _, _⟩) rfl
  rw [ht, Option.bind_eq_bind, Option.bind_some]
  refine ⟨_, rfl, ?_, rfl, ?_, ⟨?_, hheld.hasPacket⟩⟩
  · unfold NanoMQ.recvConnack
    dsimp only
    rw [if_pos hproto, if_pos hproto, hsys]
    rfl
  · change (t.sys.work.msg.getD Msg.alloc).getType = _
    rw [hmsg]
    exact hnotify _ _ _ _
  · exact hheld.toOwned.withSys rfl rfl

theorem exists_recvDisconnect (nng : Nng) (conf : Conf) (a : Wake) {m : Msg}
    (htype : m.getType = PacketType.publish) (h : r.Bare)
    (hproto : r.sys.work.proto = .mqttBroker) :
    ∃ r', r.recvDisconnect nng conf a m = some r' ∧
      r'.sys = NanoMQ.recvDisconnect nng conf a.env m r.sys ∧
      (r'.sys.work.state = .fin ∨ r'.sys.work.state = .wait) ∧
      r'.msgType = PacketType.publish ∧ r'.Held := by
  unfold recvDisconnect NanoMQ.recvDisconnect
  dsimp only
  obtain ⟨t, ht, hsys, hheld, hmsg⟩ := exists_publishEvent nng conf a ProtoVer.v311 true h hproto
    (s := ⟨{ (hookEntry nng conf r.sys).work with msg := some { m with cmdType := .publish } },
      _, _⟩) rfl
  have hbroker : t.sys.work.proto ≠ .mqttBridge := by
    rw [hsys, work_sysHandlePub]
    change r.sys.work.proto ≠ _
    rw [hproto]
    decide
  rw [ht, ← hsys, Option.bind_eq_bind, Option.bind_some]
  dsimp only
  have htype' : (t.sys.work.msg.getD Msg.alloc).getType = PacketType.publish := by
    rw [hmsg]
    exact htype
  split_ifs with hwill hboth hboth
  · refine ⟨_, rfl, rfl, Or.inl rfl, htype', ⟨?_, hheld.hasPacket⟩⟩
    exact hheld.toOwned.withSys rfl rfl
  · exact absurd ⟨hbroker, hwill⟩ hboth
  · exact absurd hboth.2 hwill
  · refine ⟨_, rfl, rfl, Or.inr rfl, htype', ⟨?_, hheld.hasPacket⟩⟩
    exact hheld.toOwned.withSys rfl rfl

end Events

end WorkRes

end NanoMQ
