import NanoMQ.WorkStages

/-!
# From one receive to the next

A work of the broker that takes up a PUBLISH, SUBSCRIBE or UNSUBSCRIBE is back in RECV after three
steps at most. Until then it owes the release of the connection parameters that came with the
message: WAIT and SEND still do, CLOSE does not any more.
-/

namespace NanoMQ

open ByteBuffer

namespace WorkRes

section Reach

variable {nng : Nng} {conf : Conf} {junk : UInt8} {a : Wake} {r r' : WorkRes}

theorem Owned.withStore (h : r.Owned) (st : Store) :
    Owned { r with sys := { r.sys with store := st } } :=
  h.withSys rfl rfl

theorem Bare.withStore (h : r.Bare) (st : Store) :
    Bare { r with sys := { r.sys with store := st } } :=
  h.withSys h.pubPacket h.msgInfos

theorem Held.withStore (h : r.Held) (st : Store) :
    Held { r with sys := { r.sys with store := st } } :=
  ⟨h.toOwned.withStore st, h.hasPacket⟩

theorem Stage.withStore (h : r.Stage) (st : Store) :
    Stage { r with sys := { r.sys with store := st } } := by
  cases h with
  | init hstate hbare => exact .init hstate (hbare.withStore st)
  | recv hstate hbare => exact .recv hstate (hbare.withStore st)
  | other hstate htype hbare => exact .other hstate htype (hbare.withStore st)
  | wait hstate htype hheld => exact .wait hstate htype (hheld.withStore st)
  | send hstate howned hreads => exact .send hstate (howned.withStore st) hreads
  | fin hstate hheld => exact .fin hstate (hheld.withStore st)
  | close hstate hbare => exact .close hstate (hbare.withStore st)

structure Sound (r : WorkRes) : Prop where
  stage : r.Stage
  clear : CodeClear r.sys.work

theorem exists_wake (hnotify : nng.NotifiesPublish) (hwill : nng.ComposesPublish) (conf : Conf)
    (junk : UInt8) (h : r.Sound)
    (hagree : r.sys.work.state = .recv → ∀ m, a.env.msg = some m → m.HeaderAgrees) :
    ∃ r', r.wake nng conf junk a = some r' ∧ r'.Sound := by
  obtain ⟨r', hr', hsys, hstage⟩ :=
    exists_serverCb hnotify hwill conf junk (h.stage.withStore a.store) h.clear.broker hagree
  refine ⟨r', hr', hstage, ?_⟩
  rw [hsys]
  exact codeClear_serverCb (s := { r.sys with store := a.store }) junk a.env h.clear

theorem Reached.sound (hnotify : nng.NotifiesPublish) (hwill : nng.ComposesPublish)
    (h : Reached nng conf junk r) : r.Sound := by
  induction h with
  | alloc =>
    have hnull : ∀ {α : Type}, (OwnerSlot.null : OwnerSlot α).Sole := OwnerSlot.sole_null
    exact ⟨.init rfl (bare_mk hnull rfl hnull rfl rfl rfl), rfl, Or.inr rfl⟩
  | step a _ hagree hnext ih =>
    obtain ⟨r', hr', hsound⟩ := exists_wake hnotify hwill conf junk ih hagree
    rw [hnext] at hr'
    cases hr'
    exact hsound

theorem Stage.bare (h : r.Stage) (hstate : r.sys.work.state = .recv) : r.Bare := by
  cases h with
  | recv _ hbare => exact hbare
  | init h' _ | other h' _ _ | wait h' _ _ | send h' _ _ | fin h' _ | close h' _ =>
    rw [hstate] at h'
    cases h'

theorem Stage.held (h : r.Stage) (hstate : r.sys.work.state = .wait)
    (htype : r.msgType = PacketType.publish) : r.Held := by
  cases h with
  | wait _ _ hheld => exact hheld
  | other _ hne _ => exact absurd htype hne
  | init h' _ | recv h' _ | send h' _ _ | fin h' _ | close h' _ =>
    rw [hstate] at h'
    cases h'

theorem Stage.sends (h : r.Stage) (hstate : r.sys.work.state = .send) :
    r.Owned ∧ (r.sys.work.flag = .publish → r.packet.ptr.isSome = true) := by
  cases h with
  | send _ howned hreads => exact ⟨howned, hreads⟩
  | init h' _ | recv h' _ | other h' _ _ | wait h' _ _ | fin h' _ | close h' _ =>
    rw [hstate] at h'
    cases h'

end Reach

/-- Whether the connection parameters are still to be released, by the state of the work. -/
inductive Due (base : List (Option ConnParam)) (c : Option ConnParam) (r : WorkRes) : Prop
  | wait (state : r.sys.work.state = .wait) (type : r.msgType = PacketType.publish)
      (released : r.released = base) (cparam : r.sys.work.cparam = c)
  | send (state : r.sys.work.state = .send) (released : r.released = base)
      (cparam : r.sys.work.cparam = c)
  | close (state : r.sys.work.state = .close) (released : r.released = base ++ [c])
  | back (state : r.sys.work.state = .recv) (released : r.released = base ++ [c])

def stepsLeft (r : WorkRes) : ℕ :=
  match r.sys.work.state with
  | .wait => 2
  | .send | .close => 1
  | _ => 0

section Steps

variable {nng : Nng} {conf : Conf} {junk : UInt8} {a : Wake} {r r' : WorkRes}
  {base : List (Option ConnParam)} {c : Option ConnParam} {m : Msg}

theorem Due.withStore (h : r.Due base c) (st : Store) :
    Due base c { r with sys := { r.sys with store := st } } := by
  cases h with
  | wait hstate htype hrel hc => exact .wait hstate htype hrel hc
  | send hstate hrel hc => exact .send hstate hrel hc
  | close hstate hrel => exact .close hstate hrel
  | back hstate hrel => exact .back hstate hrel

/-- After the message is taken up, its connection parameters are due. -/
theorem due_recvMsg (hkind : m.cmdType = .publish ∨ m.cmdType = .subscribe ∨
      m.cmdType = .unsubscribe) (hagree : m.HeaderAgrees) (h : r.Bare)
    (hproto : r.sys.work.proto = .mqttBroker) (hr' : r.recvMsg nng conf junk a m = some r') :
    r'.Due r.released m.connParam ∧ r'.sys.work.state ≠ .recv := by
  have hload : Bare { r with sys := { r.sys with work := r.sys.work.load m } } :=
    h.withSys h.pubPacket h.msgInfos
  unfold recvMsg at hr'
  rcases hkind with hk | hk | hk <;> rw [hk] at hr'
  · obtain ⟨t, ht, -, hcases⟩ := exists_recvPublish nng conf a m h hproto
    obtain rfl : t = r' := Option.some.inj (ht.symm.trans hr')
    rcases hcases with ⟨hclose, -, hrel⟩ | ⟨hwait, -, hrel, hc, htype⟩
    · exact ⟨.close hclose hrel, by rw [hclose]; decide⟩
    · exact ⟨.wait hwait (htype.trans (hagree.mpr (Or.inl hk))) hrel hc, by rw [hwait]; decide⟩
  · obtain ⟨t, ht, hsys, -, hcases⟩ := exists_recvSubscribe nng conf junk a hload
    obtain rfl : t = r' := Option.some.inj (ht.symm.trans hr')
    rcases hcases with ⟨hclose, hrel⟩ | ⟨hsend, hrel⟩
    · exact ⟨.close hclose hrel, by rw [hclose]; decide⟩
    · refine ⟨.send hsend hrel ?_, by rw [hsend]; decide⟩
      rw [hsys, (work_recvSubscribe nng conf junk a.env _).1]
      rfl
  · obtain rfl := Option.some.inj hr'
    exact ⟨.send rfl rfl rfl, nofun⟩

/-- A step of a work that is not in RECV settles what is due or leaves it due. -/
theorem Due.step (hdue : r.Due base c) (hstage : r.Stage) (hactive : r.sys.work.state ≠ .recv)
    (hok : a.env.result = .ok) (hr' : r.serverCb nng conf junk a = some r') :
    r'.Due base c ∧ r'.stepsLeft < r.stepsLeft := by
  cases hdue with
  | wait hstate htype hrel hc =>
    rw [serverCb, hstate] at hr'
    obtain ⟨t, ht, -, hcases⟩ := exists_wait nng conf (hstage.held hstate htype) htype hok
    obtain rfl : t = r' := Option.some.inj (ht.symm.trans hr')
    rcases hcases with ⟨hsend, -, hrel', hc'⟩ | ⟨hrecv, -, hrel'⟩
    · refine ⟨.send hsend (hrel'.trans hrel) (hc'.trans hc), ?_⟩
      rw [stepsLeft, stepsLeft, hsend, hstate]
      decide
    · rw [hrel, hc] at hrel'
      refine ⟨.back hrecv hrel', ?_⟩
      rw [stepsLeft, stepsLeft, hrecv, hstate]
      decide
  | send hstate hrel hc =>
    rw [serverCb, hstate] at hr'
    obtain ⟨howned, hreads⟩ := hstage.sends hstate
    obtain ⟨t, ht, -, hrecv, -, hrel'⟩ := exists_send nng conf howned hreads
    obtain rfl : t = r' := Option.some.inj (ht.symm.trans hr')
    rw [hrel, hc] at hrel'
    refine ⟨.back hrecv hrel', ?_⟩
    rw [stepsLeft, stepsLeft, hrecv, hstate]
    decide
  | close hstate hrel =>
    rw [serverCb, hstate] at hr'
    obtain rfl := Option.some.inj hr'
    refine ⟨.back rfl hrel, ?_⟩
    rw [stepsLeft, stepsLeft, hstate]
    exact Nat.zero_lt_one
  | back hstate _ => exact absurd hstate hactive

theorem Due.released_of_recv (h : r.Due base c) (hrecv : r.sys.work.state = .recv) :
    r.released = base ++ [c] := by
  cases h with
  | back _ hrel => exact hrel
  | wait hstate _ _ _ | send hstate _ _ | close hstate _ =>
    rw [hrecv] at hstate
    cases hstate

theorem stepsLeft_le (r : WorkRes) : r.stepsLeft ≤ 2 := by
  unfold stepsLeft
  split <;> decide

theorem Due.recv_of_stepsLeft (h : r.Due base c) (hzero : r.stepsLeft = 0) :
    r.sys.work.state = .recv := by
  cases h with
  | back hstate _ => exact hstate
  | wait hstate _ _ _ | send hstate _ _ | close hstate _ =>
    have hne : r.stepsLeft ≠ 0 := by
      rw [stepsLeft, hstate]
      decide
    exact absurd hzero hne

end Steps

/-- The work goes on, woken once for each entry, until it is back in RECV. -/
def backToRecv (nng : Nng) (conf : Conf) (junk : UInt8) (wakes : List Wake) (r : WorkRes) :
    Option WorkRes :=
  Cycle.settleM (wake nng conf junk) (fun r => r.sys.work.state = .recv) wakes r

section Run

variable {nng : Nng} {conf : Conf} {junk : UInt8} {a : Wake} {r : WorkRes} {m : Msg}

theorem exists_backToRecv {base : List (Option ConnParam)} {c : Option ConnParam}
    (hnotify : nng.NotifiesPublish) (hwill : nng.ComposesPublish) (conf : Conf) (junk : UInt8)
    (hsound : r.Sound) (hdue : r.Due base c) {wakes : List Wake} (hlen : 2 ≤ wakes.length)
    (hall : ∀ b ∈ wakes, b.env.result = .ok) :
    ∃ r', r.backToRecv nng conf junk wakes = some r' ∧ r'.sys.work.state = .recv ∧ r'.Sound ∧
      r'.Due base c := by
  have hstep : ∀ (b : Wake) (t : WorkRes), b.env.result = .ok →
      decide (t.sys.work.state = .recv) = false → (t.Sound ∧ t.Due base c) →
      ∃ t', t.wake nng conf junk b = some t' ∧ (t'.Sound ∧ t'.Due base c) ∧
        t'.stepsLeft < t.stepsLeft := by
    rintro b t hok hactive ⟨ht, htdue⟩
    have hne := of_decide_eq_false hactive
    obtain ⟨t', ht', htsound⟩ := exists_wake hnotify hwill conf junk ht (fun h => absurd h hne)
    obtain ⟨hdue', hlt⟩ :=
      (htdue.withStore b.store).step (ht.stage.withStore b.store) hne hok ht'
    exact ⟨t', ht', ⟨htsound, hdue'⟩, hlt⟩
  have hzero : ∀ t : WorkRes, (t.Sound ∧ t.Due base c) → t.stepsLeft = 0 →
      decide (t.sys.work.state = .recv) = true :=
    fun t ht hleft => decide_eq_true (ht.2.recv_of_stepsLeft hleft)
  obtain ⟨r', hr', hrest, hsound', hdue'⟩ := Cycle.exists_settleM hstep hall ⟨hsound, hdue⟩
    (Nat.le_trans r.stepsLeft_le hlen) hzero
  exact ⟨r', hr', of_decide_eq_true hrest, hsound', hdue'⟩

/-- A PUBLISH, SUBSCRIBE or UNSUBSCRIBE that a work of the broker receives takes it back to RECV
with everything released: the connection parameters once, every packet that was ever allocated, and
no pointer, vector or code left. -/
theorem wake_releases (hnotify : nng.NotifiesPublish) (hwill : nng.ComposesPublish)
    (hreached : Reached nng conf junk r) (hrecv : r.sys.work.state = .recv)
    (hok : a.env.result = .ok) (hmsg : a.env.msg = some m)
    (hkind : m.cmdType = .publish ∨ m.cmdType = .subscribe ∨ m.cmdType = .unsubscribe)
    (hagree : m.HeaderAgrees) {wakes : List Wake} (hlen : 2 ≤ wakes.length)
    (hall : ∀ b ∈ wakes, b.env.result = .ok) :
    ∃ r₁ r₂, r.wake nng conf junk a = some r₁ ∧ r₁.sys.work.state ≠ .recv ∧
      r₁.backToRecv nng conf junk wakes = some r₂ ∧ r₂.sys.work.state = .recv ∧
      r₂.released = r.released ++ [m.connParam] ∧
      (∀ p, p < r₂.packet.heap.size → r₂.packet.heap.Freed p) ∧
      r₂.packet.ptr = none ∧ r₂.infos.ptr = none ∧ r₂.sys.work.code = ReasonCode.success := by
  have hsound := hreached.sound hnotify hwill
  have hagrees : r.sys.work.state = .recv → ∀ m', a.env.msg = some m' → m'.HeaderAgrees := by
    intro _ m' hm'
    rw [hmsg] at hm'
    cases hm'
    exact hagree
  obtain ⟨r₁, hr₁, hsound₁⟩ := exists_wake hnotify hwill conf junk hsound hagrees
  have hbare := (hsound.stage.bare hrecv).withStore a.store
  have htaken : recvMsg nng conf junk a m { r with sys := { r.sys with store := a.store } } =
      some r₁ := by
    have hacc : accepted a.env.result r.sys.work a.env.msg = some m := by
      rw [hmsg]
      exact if_pos (Or.inl hok)
    rw [wake, serverCb] at hr₁
    dsimp only at hr₁
    rw [hrecv] at hr₁
    dsimp only [recv] at hr₁
    rwa [hacc] at hr₁
  obtain ⟨hdue, hleft⟩ := due_recvMsg hkind hagree hbare hsound.clear.broker htaken
  obtain ⟨r₂, hr₂, hback, hsound₂, hdue₂⟩ :=
    exists_backToRecv hnotify hwill conf junk hsound₁ hdue hlen hall
  have hbare₂ := hsound₂.stage.bare hback
  have hclear : r₂.sys.work.code = ReasonCode.success := by
    refine hsound₂.clear.code.resolve_left ?_
    rw [hback]
    decide
  exact ⟨r₁, r₂, hr₁, hleft, hr₂, hback, hdue₂.released_of_recv hback,
    fun p hp => hbare₂.packet.freed hbare₂.noPacket hp, hbare₂.noPacket, hbare₂.noInfos, hclear⟩

def started : WorkRes := { alloc with sys := alloc.sys.goto .recv }

def plainWake (env : StepEnv) : Wake := ⟨env, Store.empty, fun _ _ => false, true⟩

theorem wake_releases_publish :
    ∃ r₁ r₂, started.wake Nng.reference Conf.bare 0
        (plainWake (.receive (simplePublish (ascii "a")))) = some r₁ ∧
      r₁.backToRecv Nng.reference Conf.bare 0
        (List.replicate 2 (plainWake (.receive Msg.alloc))) = some r₂ ∧
      r₂.released = [some ConnParam.bare] ∧ r₂.packet.ptr = none := by
  have hreached : Reached Nng.reference Conf.bare 0 started :=
    .step (plainWake (.receive Msg.alloc)) .alloc nofun rfl
  have hagree : (simplePublish (ascii "a")).HeaderAgrees := iff_of_true (by decide) (Or.inl rfl)
  have hall : ∀ b ∈ List.replicate 2 (plainWake (.receive Msg.alloc)), b.env.result = .ok := by
    intro b hb
    rw [List.eq_of_mem_replicate hb]
    rfl
  obtain ⟨r₁, r₂, hr₁, -, hr₂, -, hrel, -, hptr, -, -⟩ :=
    wake_releases (a := plainWake (.receive (simplePublish (ascii "a"))))
      Reference.notifiesPublish Reference.composesPublish hreached rfl rfl rfl (Or.inl rfl) hagree
      (by decide) hall
  exact ⟨r₁, r₂, hr₁, hr₂, hrel, hptr⟩

end Run

end WorkRes

end NanoMQ
