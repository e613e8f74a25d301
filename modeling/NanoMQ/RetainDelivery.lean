import NanoMQ.SubHandling

/-!
# Are the retained messages delivered?

The loop that sends them ends at the first message that has expired. The messages behind it are
neither sent nor let go of, and the expired one is only let go of in a broker built with sqlite. So
all is well exactly when nothing has expired, or, in such a broker, only the last message.
-/

namespace NanoMQ

open ByteBuffer

/-- The retained messages that a subscriber should get, in the order of `msg_ret`. -/
def retainedFor (nng : Nng) (conf : Conf) (clock : ℕ) (ver : ProtoVer) (msgs : List Msg) :
    List Msg :=
  (msgs.filter (fun m => checkMsgExp nng conf clock m (nng.publishProperty m))).filterMap
    (retainCopy nng ver)

/-- A message has expired only where the loop ends anyway, and the test itself lets go of it. -/
def ExpiredLast (nng : Nng) (conf : Conf) (clock : ℕ) (msgs : List Msg) : Prop :=
  ∀ pre m post, msgs = pre ++ m :: post →
    checkMsgExp nng conf clock m (nng.publishProperty m) = false →
      conf.build.sqlite = true ∧ post = []

section Loop

variable {nng : Nng} {conf : Conf} {clock : ℕ} {ver : ProtoVer} {m : Msg} {ms : List Msg}

theorem expiredLast_nil : ExpiredLast nng conf clock [] := by
  intro pre m post heq
  cases pre <;> cases heq

theorem expiredLast_cons_of_fresh
    (hm : checkMsgExp nng conf clock m (nng.publishProperty m) = true) :
    ExpiredLast nng conf clock (m :: ms) ↔ ExpiredLast nng conf clock ms := by
  constructor
  · intro h pre m' post heq
    exact h (m :: pre) m' post (by rw [heq, List.cons_append])
  · intro h pre m' post heq hexp
    cases pre with
    | nil =>
      obtain ⟨rfl, -⟩ := List.cons.inj heq
      rw [hm] at hexp
      cases hexp
    | cons y pre => exact h pre m' post (List.cons.inj heq).2 hexp

theorem expiredLast_cons_of_expired
    (hm : checkMsgExp nng conf clock m (nng.publishProperty m) = false) :
    ExpiredLast nng conf clock (m :: ms) ↔ conf.build.sqlite = true ∧ ms = [] := by
  constructor
  · intro h
    exact h [] m ms rfl hm
  · rintro ⟨hsql, rfl⟩ pre m' post heq -
    refine ⟨hsql, ?_⟩
    cases pre with
    | nil => exact (List.cons.inj heq).2.symm
    | cons y pre => cases pre <;> cases (List.cons.inj heq).2

/-- The loop lets go of each message once, exactly where it does not end early. -/
theorem freed_sendRetained_iff (nng : Nng) (conf : Conf) (clock : ℕ) (ver : ProtoVer) (i : ℕ)
    (msgs : List Msg) :
    (sendRetained nng conf clock ver i msgs).freed = List.range' i msgs.length ↔
      ExpiredLast nng conf clock msgs := by
  induction msgs generalizing i with
  | nil => exact iff_of_true rfl expiredLast_nil
  | cons m ms ih =>
    rw [sendRetained, List.length_cons, List.range'_succ]
    cases hm : checkMsgExp nng conf clock m (nng.publishProperty m) with
    | true =>
      rw [if_pos rfl, expiredLast_cons_of_fresh hm, ← ih (i + 1)]
      exact ⟨fun h => (List.cons.inj h).2, fun h => congrArg (List.cons i) h⟩
    | false =>
      rw [if_neg Bool.false_ne_true, expiredLast_cons_of_expired hm]
      dsimp only
      split_ifs with hsql
      · rw [List.cons.injEq, List.nil_eq, List.range'_eq_nil_iff, List.length_eq_zero_iff]
        simp [hsql]
      · exact iff_of_false (fun h => by cases h) (fun h => hsql h.1)

/-- Then it has sent what it should. -/
theorem sent_sendRetained {msgs : List Msg} (h : ExpiredLast nng conf clock msgs) (i : ℕ) :
    (sendRetained nng conf clock ver i msgs).sent = retainedFor nng conf clock ver msgs := by
  induction msgs generalizing i with
  | nil => rfl
  | cons m ms ih =>
    rw [sendRetained, retainedFor, List.filter_cons]
    cases hm : checkMsgExp nng conf clock m (nng.publishProperty m) with
    | true =>
      have htail := ih ((expiredLast_cons_of_fresh hm).mp h) (i + 1)
      rw [if_pos rfl, if_pos rfl, List.filterMap_cons]
      dsimp only
      rw [htail, retainedFor]
      cases retainCopy nng ver m <;> rfl
    | false =>
      obtain ⟨-, rfl⟩ := (expiredLast_cons_of_expired hm).mp h
      rfl

end Loop

def Effect.delivered : Effect → Option (ℕ × Msg)
  | .deliver pid m => some (pid, m)
  | _ => none

/-- A SUBSCRIBE was accepted: it was decoded and handled, and the work is not to close. -/
structure AcceptedSub (nng : Nng) (conf : Conf) (st : Store) (x : Intake) : Prop where
  kind : x.msg.cmdType = .subscribe
  decoded : (x.decodeSub nng).code = ReasonCode.success
  handled : (x.handleSub nng conf st).1 = 0
  code : x.work.code = ReasonCode.success

structure RetainDelivered (nng : Nng) (conf : Conf) (x : Intake) (msgs : List Msg) (s : Sys)
    (freed : List ℕ) : Prop where
  sent : s.log.filterMap Effect.delivered =
    (retainedFor nng conf x.env.pub.clock x.version msgs).map (fun m => (x.msg.pipe, m))
  freed : freed = List.range msgs.length

theorem AcceptedSub.log_run {nng : Nng} {conf : Conf} {junk : UInt8} {st : Store} {x : Intake}
    (h : AcceptedSub nng conf st x) :
    (x.run nng conf junk st).log.filterMap Effect.delivered =
      (sendRetained nng conf x.env.pub.clock x.version 0
        (x.handleSub nng conf st).2.msgRet).sent.map (fun m => (x.msg.pipe, m)) := by
  obtain ⟨ack, hack⟩ := Intake.answerSub_handled h.handled h.code
  have hstep : (brokerHandlers nng conf junk).subscribe x.stepEnv (x.loaded st) = (0, _) :=
    (Intake.subscribeStep_decoded h.decoded).trans hack
  rw [Intake.run_subscribe h.kind, Intake.log_recvSubscribe, hstep]
  dsimp only
  rw [List.filterMap_append, List.filterMap_map, ← List.filterMap_eq_map]
  exact List.append_nil _

/-- The retained messages of an accepted SUBSCRIBE are delivered, and each is let go of once,
exactly when none of them has expired but for the last in a broker built with sqlite. -/
theorem retained_delivered_iff {nng : Nng} {conf : Conf} (junk : UInt8) {st : Store} {x : Intake}
    (h : AcceptedSub nng conf st x) {msgs : List Msg}
    (hmsgs : (x.handleSub nng conf st).2.msgRet = msgs) :
    RetainDelivered nng conf x msgs (x.run nng conf junk st)
        (sendRetained nng conf x.env.pub.clock x.version 0 msgs).freed ↔
      ExpiredLast nng conf x.env.pub.clock msgs := by
  subst hmsgs
  have hfreed := freed_sendRetained_iff nng conf x.env.pub.clock x.version 0
    (x.handleSub nng conf st).2.msgRet
  rw [← List.range_eq_range'] at hfreed
  constructor
  · intro hdel
    exact hfreed.mp hdel.freed
  · intro hlast
    refine ⟨?_, hfreed.mpr hlast⟩
    rw [h.log_run, sent_sendRetained hlast]

/-- A property block of MQTT 5 behind the topic `a` or `b` may hold an expiry interval of a
second. -/
def expiringNng : Nng :=
  { Nng.reference with
    publishProperty := fun m =>
      if slice m.body 3 6 = [5, 2, 0, 0, 0, 1] then some [⟨messageExpiryIntervalId, .u32 1⟩]
      else none }

def retainedPair : List Msg :=
  [{ Msg.alloc with
      header := [0x31, 10], body := [0, 1, 0x61, 5, 2, 0, 0, 0, 1, 0x78]
      cmdType := .publishV5, publishProtoVersion := ProtoVer.v5 },
    { Msg.alloc with
      header := [0x31, 4], body := [0, 1, 0x62, 0x79]
      cmdType := .publish, publishProtoVersion := ProtoVer.v311 }]

def retainedPairStore : Store :=
  { Store.empty with
    dbRet := fun t => if t = ascii "a" then retainedPair[0]? else
      if t = ascii "b" then retainedPair[1]? else none }

/-- A subscription to both topics half a second after the messages were stored. -/
theorem retainedPair_delivered :
    let x := Intake.ofMsg (simpleSubscribe [0, 1, 0x61, 0, 0, 1, 0x62, 0]) 500
    RetainDelivered expiringNng Conf.bare x retainedPair
        (x.run expiringNng Conf.bare 0 retainedPairStore)
        (sendRetained expiringNng Conf.bare 500 x.version 0 retainedPair).freed ∧
      (sendRetained expiringNng Conf.bare 500 x.version 0 retainedPair).freed = [0, 1] := by
  intro x
  refine ⟨(retained_delivered_iff 0 ⟨rfl, by decide, by decide, rfl⟩ (by decide)).mpr ?_, by decide⟩
  exact (expiredLast_cons_of_fresh (by decide)).mpr
    ((expiredLast_cons_of_fresh (by decide)).mpr expiredLast_nil)

/-- Two seconds after, the message under `b` is not sent, and neither is let go of. -/
theorem expired_stops_delivery :
    let x := Intake.ofMsg (simpleSubscribe [0, 1, 0x61, 0, 0, 1, 0x62, 0]) 2000
    let s := x.run expiringNng Conf.bare 0 retainedPairStore
    let freed := (sendRetained expiringNng Conf.bare 2000 x.version 0 retainedPair).freed
    (AcceptedSub expiringNng Conf.bare retainedPairStore x ∧
      (x.handleSub expiringNng Conf.bare retainedPairStore).2.msgRet = retainedPair) ∧
    s.log.filterMap Effect.delivered = [] ∧ freed = [] ∧
    (retainedFor expiringNng Conf.bare 2000 x.version retainedPair).length = 1 ∧
    ¬ RetainDelivered expiringNng Conf.bare x retainedPair s freed := by
  intro x s freed
  refine ⟨⟨⟨rfl, by decide, by decide, rfl⟩, by decide⟩, by decide, by decide, by decide, ?_⟩
  intro h
  exact absurd h.freed (by decide)

end NanoMQ
