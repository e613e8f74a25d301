import NanoMQ.GuardedRun
import NanoMQ.HookStages

/-!
# The lifecycle of a webhook request

`send_msg` and `http_aio_cb` run in different threads and share the variables of a work. Every step
of either leads from a stage to a stage, so a work is orderly in every state of every run: nothing
is used, released or created at the wrong time, and no exit keeps the mutex.
-/

namespace NanoMQ

namespace HookRes

variable {s : HookRes} {st : HookStage} {m : ℕ}

theorem At.requeue (hs : At st s) {msgs : OwnedHeap HookCmd} {lmq : BoundedFifo ℕ}
    (hcmd : ∀ m, st.msg = some m → msgs.read m = s.msgs.read m)
    (hqueue : Queued msgs st.msg lmq.items) : At st { s with msgs := msgs, lmq := lmq } :=
  { hs with
    cmd := fun m hm => (hcmd m hm).trans (hs.cmd m hm)
    queue := hqueue }

theorem At.pick (hs : At st s) {msg : Option ℕ} {lmq : BoundedFifo ℕ}
    (hmsg : ∀ m, msg = some m →
      s.msgs.read m = some .other ∧ m ∉ s.lmq.items ∧ st.msg ≠ some m)
    (hpick : msg.elim s.lmq.get (fun m => some (m, s.lmq)) = some (m, lmq)) :
    s.msgs.read m = some .other ∧ m ∉ lmq.items ∧ st.msg ≠ some m ∧
      Queued s.msgs st.msg lmq.items := by
  cases msg with
  | none =>
    have hqueue := hs.queue
    rw [(BoundedFifo.items_of_get hpick).1] at hqueue
    exact ⟨hqueue.fresh m List.mem_cons_self, (List.nodup_cons.mp hqueue.nodup).1,
      hqueue.apart m List.mem_cons_self, hqueue.tail⟩
  | some m' =>
    obtain ⟨rfl, rfl⟩ := Prod.mk.inj (Option.some.inj hpick)
    obtain ⟨hread, hnot, hheld⟩ := hmsg m' rfl
    exact ⟨hread, hnot, hheld, hs.queue⟩

/-- A message is queued, or freed if there is no room. -/
theorem exists_enqueue {held : Option ℕ} (hqueue : Queued s.msgs held s.lmq.items)
    (hm : s.msgs.read m = some .other) (hnot : m ∉ s.lmq.items) (hheld : held ≠ some m) :
    ∃ msgs lmq, enqueue s m = some { s with msgs := msgs, lmq := lmq } ∧
      Queued msgs held lmq.items ∧ ∀ q, held = some q → msgs.read q = s.msgs.read q := by
  unfold enqueue
  cases hput : (if s.lmq.full then s.lmq.grow else s.lmq).put m with
  | none =>
    obtain ⟨msgs, hfree⟩ := OwnedHeap.exists_free hm
    obtain ⟨-, -, hframe⟩ := OwnedHeap.of_free hfree
    refine ⟨msgs, s.lmq, ?_, hqueue.congr (fun q hmem => ?_), fun q hq => ?_⟩
    · rw [freeMsg, hfree]
      rfl
    · exact hframe q (fun heq => hnot (heq ▸ hmem))
    · exact hframe q (fun heq => hheld (heq ▸ hq))
  | some lmq =>
    have hitems := (BoundedFifo.items_of_put hput).1
    have hgrow : (if s.lmq.full then s.lmq.grow else s.lmq).items = s.lmq.items := by
      split_ifs <;> rfl
    rw [hgrow] at hitems
    refine ⟨s.msgs, lmq, rfl, ?_, fun _ _ => rfl⟩
    rw [hitems]
    exact hqueue.concat hm hnot hheld

theorem At.eq_idle (hs : At st s) (hsending : st.sending = false) (hbusy : s.busy = false) :
    st = .idle := by
  have hfree := of_decide_eq_false hbusy
  rw [not_or, not_not, not_not, hs.ops, hs.atDrain, hs.atConnect] at hfree
  cases st with
  | idle => rfl
  | pending m c sender =>
    obtain rfl : sender = false := hsending
    simp only [HookStage.atConnect, Bool.false_eq_true, if_false] at hfree
    omega
  | connecting m c => cases hfree.1
  | writing m c k r => cases hfree.1
  | draining =>
    simp only [HookStage.atDrain] at hfree
    omega

theorem At.exists_sendMsg (hs : At st s) (hsending : st.sending = false) (clientAlloc : Bool)
    (msg : Option ℕ) (hmsg : ∀ m, msg = some m →
      s.msgs.read m = some .other ∧ m ∉ s.lmq.items ∧ st.msg ≠ some m) :
    ∃ s' st', sendMsg clientAlloc msg s = some s' ∧ At st' s' := by
  cases hpick : msg.elim s.lmq.get (fun m => some (m, s.lmq)) with
  | none =>
    simp only [sendMsg, lock, unlock, hs.mutex, hpick, Option.bind_eq_bind, Option.bind_some,
      if_true, Bool.false_eq_true, if_false]
    exact ⟨_, st, rfl, { hs with mutex := rfl }⟩
  | some p =>
    obtain ⟨m, lmq⟩ := p
    obtain ⟨hm, hnot, hheld, hqueue⟩ := hs.pick hmsg hpick
    have hs₁ : At st { s with lmq := lmq } := hs.requeue (fun _ _ => rfl) hqueue
    simp only [sendMsg, lock, hs.mutex, hpick, Option.bind_eq_bind, Option.bind_some,
      Bool.false_eq_true, if_false]
    cases hbusy : s.busy with
    | true =>
      have hfull : busy { s with lmq := lmq, locked := true } = true := hbusy
      obtain ⟨msgs, lmq', henqueue, hqueue', hcmd⟩ := exists_enqueue
        (s := { s with lmq := lmq, locked := true }) hqueue hm hnot hheld
      simp only [hfull, henqueue, unlock, Option.bind_some, if_true]
      have hs' := hs.requeue hcmd hqueue'
      exact ⟨_, st, rfl, { hs' with mutex := rfl }⟩
    | false =>
      have hfree : busy { s with lmq := lmq, locked := true } = false := hbusy
      obtain rfl := hs.eq_idle hsending hbusy
      cases clientAlloc with
      | false =>
        simp only [hfree, unlock, Bool.false_eq_true, if_false, if_true]
        have hs' := hs.requeue (fun _ _ => rfl) hqueue
        exact ⟨_, .idle, rfl, { hs' with mutex := rfl }⟩
      | true =>
        simp only [hfree, unlock, OwnerSlot.create_of_null hs.clientPtr, Option.bind_some,
          Bool.false_eq_true, if_false, if_true]
        refine ⟨_, .pending m s.client.heap.size true, rfl, rfl,
          hs.client.alloc hs.clientPtr (), rfl, hs.conn, hs.connPtr, hs.req, hs.reqPtr, ?_, rfl,
          ?_, ⟨hqueue.nodup, hqueue.fresh, fun q hmem heq => ?_⟩, hs.ops, rfl, hs.atDrain,
          hs.atConnect⟩
        · intro r hr
          cases hr
        · intro m' hm'
          obtain rfl := Option.some.inj hm'
          exact hm
        · obtain rfl := Option.some.inj heq
          exact hnot hmem

theorem At.exists_complete (hs : At st s) {callback : HookRes → Option HookRes}
    (hconnect : ∀ m c, st = .connecting m c →
      ∃ s' st', callback { s with ops := [] } = some s' ∧ At st' s')
    (hwrite : ∀ m c k r, st = .writing m c k r →
      ∃ s' st', callback { s with ops := [] } = some s' ∧ At st' s') :
    ∃ s' st', complete callback s = some s' ∧ At st' s' := by
  unfold complete
  cases st with
  | idle | pending _ _ _ | draining =>
    rw [hs.ops]
    exact ⟨s, _, rfl, hs⟩
  | connecting m c =>
    have husable : s.Usable (.connect c) := hs.client.isSome_read hs.clientPtr
    rw [hs.ops]
    dsimp only [HookStage.ops]
    rw [if_pos husable]
    exact hconnect m c rfl
  | writing m c k r =>
    have husable : s.Usable (.write k r) := by
      refine ⟨hs.conn.isSome_read hs.connPtr, ?_⟩
      rw [hs.data r rfl]
      exact Option.isSome_of_eq_some (hs.cmd m rfl)
    rw [hs.ops]
    dsimp only [HookStage.ops]
    rw [if_pos husable]
    exact hwrite m c k r rfl

/-- A message that arrives is a new one, which nobody holds. -/
theorem At.exists_arrive (hs : At st s) (hsending : st.sending = false) (clientAlloc : Bool) :
    ∃ s' st', sendMsg clientAlloc (some s.msgs.size)
      { s with msgs := s.msgs.alloc .other } = some s' ∧ At st' s' := by
  have hcmd : ∀ m, st.msg = some m → m < s.msgs.size :=
    fun m hm => OwnedHeap.lt_size_of_read (hs.cmd m hm)
  have hs₁ : At st { s with msgs := s.msgs.alloc .other } :=
    hs.requeue (fun m hm => OwnedHeap.read_alloc_of_lt _ (hcmd m hm)) hs.queue.alloc
  refine hs₁.exists_sendMsg hsending clientAlloc _ (fun m hm => ?_)
  obtain rfl := Option.some.inj hm
  refine ⟨s.msgs.read_alloc_self .other, fun hmem => ?_, fun hheld => ?_⟩
  · exact Nat.lt_irrefl _ (OwnedHeap.lt_size_of_read (hs.queue.fresh _ hmem))
  · exact Nat.lt_irrefl _ (hcmd _ hheld)

theorem At.exists_senderConnects (hs : At st s) (hsending : st.sending = true) :
    ∃ s' st', submitConnect { s with sending := false } = some s' ∧ At st' s' := by
  cases st with
  | pending m c sender =>
    obtain rfl : sender = true := hsending
    have hconnect : s.atConnect = 0 := hs.atConnect
    obtain ⟨s', hs', hat⟩ := hs.exists_submitConnect s.atExit
    rw [← hconnect] at hs'
    exact ⟨s', _, hs', hat⟩
  | idle | connecting _ _ | writing _ _ _ _ | draining => cases hsending

theorem At.exists_connected {m c : ℕ} (hs : At (.connecting m c) s) (conn reqAlloc : Bool) :
    ∃ s' st', succeeded conn reqAlloc { s with ops := [] } = some s' ∧ At st' s' := by
  cases conn with
  | false =>
    obtain ⟨s', hs', hat⟩ := hs.exists_noConn reqAlloc
    exact ⟨s', _, hs', hat⟩
  | true =>
    cases reqAlloc with
    | false =>
      obtain ⟨s', hs', hat⟩ := hs.exists_noReq
      exact ⟨s', _, hs', hat⟩
    | true =>
      obtain ⟨s', k, r, hs', hat⟩ := hs.exists_written
      exact ⟨s', _, hs', hat⟩

/-- Every step leads from a stage to a stage. -/
theorem At.exists_step (hs : At st s) (e : HookResEvent) :
    ∃ s' st', hookResStep s e = some s' ∧ At st' s' := by
  cases e with
  | arrive clientAlloc =>
    rw [hookResStep]
    split_ifs with hsending
    · exact ⟨s, st, rfl, hs⟩
    · rw [hs.sending, Bool.not_eq_true] at hsending
      exact hs.exists_arrive hsending clientAlloc
  | pull clientAlloc =>
    rw [hookResStep]
    split_ifs with hsending
    · exact ⟨s, st, rfl, hs⟩
    · rw [hs.sending, Bool.not_eq_true] at hsending
      exact hs.exists_sendMsg hsending clientAlloc none nofun
  | senderConnects =>
    rw [hookResStep]
    split_ifs with hsending
    · rw [hs.sending] at hsending
      exact hs.exists_senderConnects hsending
    · exact ⟨s, st, rfl, hs⟩
  | succeeds conn reqAlloc =>
    refine hs.exists_complete (fun m c hst => ?_) (fun m c k r hst => ?_)
    · subst hst
      exact hs.exists_connected conn reqAlloc
    · subst hst
      obtain ⟨s', hs', hat⟩ := hs.exists_sent conn reqAlloc
      exact ⟨s', _, hs', hat⟩
  | fails =>
    refine hs.exists_complete (fun m c hst => ?_) (fun m c k r hst => ?_)
    · subst hst
      obtain ⟨s', hs', hat⟩ := hs.exists_failed rfl rfl rfl rfl
      exact ⟨s', _, hs', hat⟩
    · subst hst
      obtain ⟨s', hs', hat⟩ := hs.exists_failed rfl rfl rfl rfl
      exact ⟨s', _, hs', hat⟩
  | drains clientAlloc =>
    rw [hookResStep]
    split_ifs with hdrain
    · exact ⟨s, st, rfl, hs⟩
    · rw [hs.atDrain] at hdrain ⊢
      cases st with
      | draining => exact hs.exists_drainQueue clientAlloc
      | idle | pending _ _ _ | connecting _ _ | writing _ _ _ _ => exact absurd rfl hdrain
  | callbackConnects =>
    rw [hookResStep]
    split_ifs with hconnect
    · exact ⟨s, st, rfl, hs⟩
    · rw [hs.atConnect] at hconnect ⊢
      cases st with
      | pending m c sender =>
        cases sender with
        | true => exact absurd rfl hconnect
        | false =>
          have hsending : s.sending = false := hs.sending
          obtain ⟨s', hs', hat⟩ := hs.exists_submitConnect (s.atExit + 1)
          rw [← hsending] at hs'
          exact ⟨s', _, hs', hat⟩
      | idle | connecting _ _ | writing _ _ _ _ | draining => exact absurd rfl hconnect
  | callbackReturns => exact ⟨_, st, rfl, { hs with }⟩

theorem at_alloc : At .idle alloc where
  mutex := rfl
  client := OwnerSlot.sole_null
  clientPtr := rfl
  conn := OwnerSlot.sole_null
  connPtr := rfl
  req := OwnerSlot.sole_null
  reqPtr := rfl
  data := nofun
  msg := rfl
  cmd := nofun
  queue := ⟨.nil, nofun, nofun⟩
  ops := rfl
  sending := rfl
  atDrain := rfl
  atConnect := rfl

/-- Nobody has the mutex, at most one operation is outstanding, each variable owns the only object
of its kind, and no message in use was freed. -/
structure Orderly (s : HookRes) : Prop where
  mutex : s.locked = false
  outstanding : s.ops.length ≤ 1
  client : s.client.Sole
  conn : s.conn.Sole
  req : s.req.Sole
  aioMsg : ∀ m, s.aioMsg = some m → (s.msgs.read m).isSome = true
  queued : ∀ m ∈ s.lmq.items, (s.msgs.read m).isSome = true

theorem At.orderly (hs : At st s) : s.Orderly where
  mutex := hs.mutex
  outstanding := by
    rw [hs.ops]
    cases st with
    | idle | pending _ _ _ | draining => exact Nat.zero_le 1
    | connecting _ _ | writing _ _ _ _ => exact Nat.le_refl 1
  client := hs.client
  conn := hs.conn
  req := hs.req
  aioMsg := fun m hm => Option.isSome_of_eq_some (hs.cmd m (hs.msg.symm.trans hm))
  queued := fun m hmem => Option.isSome_of_eq_some (hs.queue.fresh m hmem)

end HookRes

/-- Whatever the order of the events, and whichever operations and allocations fail, a work never
comes to a fault and is orderly in every state: no step uses what was freed, releases it once more
or creates an object before the one of its kind is released, and none keeps the mutex. -/
theorem hookResStep_orderly (es : List HookResEvent) :
    GuardedRun.EveryState hookResStep HookRes.Orderly HookRes.alloc es := by
  have hstep : ∀ s e, (∃ st, HookRes.At st s) →
      ∃ s', hookResStep s e = some s' ∧ ∃ st, HookRes.At st s' := by
    rintro s e ⟨st, hs⟩
    obtain ⟨s', st', hs', hat⟩ := hs.exists_step e
    exact ⟨s', hs', st', hat⟩
  exact GuardedRun.everyState_of_step hstep (fun _ ⟨_, hs⟩ => hs.orderly) ⟨_, HookRes.at_alloc⟩

end NanoMQ
