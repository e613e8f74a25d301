import NanoMQ.HookResources

/-!
# The stages of a webhook request

A work is at one of five stages, whatever the order of the events: nothing is going on, a client is
there but not connecting, it is connecting, the request is being written, or the callback is before
`drain`. The stage says which of the three variables are set, which message the `aio` has, and what
is outstanding. Here are the sections of the callback, each of which leads from a stage to a stage
without a fault.
-/

namespace NanoMQ

inductive HookStage
  | idle
  | pending (m c : ℕ) (sender : Bool)
  | connecting (m c : ℕ)
  | writing (m c k r : ℕ)
  | draining

namespace HookStage

def msg : HookStage → Option ℕ
  | idle | draining => none
  | pending m _ _ | connecting m _ | writing m _ _ _ => some m

def cmd : HookStage → HookCmd
  | writing _ _ _ _ => .httpReq
  | _ => .other

def client : HookStage → Option ℕ
  | idle | draining => none
  | pending _ c _ | connecting _ c | writing _ c _ _ => some c

def conn : HookStage → Option ℕ
  | writing _ _ k _ => some k
  | _ => none

def req : HookStage → Option ℕ
  | writing _ _ _ r => some r
  | _ => none

def ops : HookStage → List HttpOp
  | connecting _ c => [.connect c]
  | writing _ _ k r => [.write k r]
  | _ => []

def sending : HookStage → Bool
  | pending _ _ sender => sender
  | _ => false

def atDrain : HookStage → ℕ
  | draining => 1
  | _ => 0

def atConnect : HookStage → ℕ
  | pending _ _ sender => if sender then 0 else 1
  | _ => 0

end HookStage

/-- The queue holds each message once, none that was freed and none that the `aio` has. -/
structure Queued (h : OwnedHeap HookCmd) (held : Option ℕ) (l : List ℕ) : Prop where
  nodup : l.Nodup
  fresh : ∀ m ∈ l, h.read m = some .other
  apart : ∀ m ∈ l, held ≠ some m

structure HookRes.At (st : HookStage) (s : HookRes) : Prop where
  mutex : s.locked = false
  client : s.client.Sole
  clientPtr : s.client.ptr = st.client
  conn : s.conn.Sole
  connPtr : s.conn.ptr = st.conn
  req : s.req.Sole
  reqPtr : s.req.ptr = st.req
  data : ∀ r, st.req = some r → s.req.heap.read r = st.msg
  msg : s.aioMsg = st.msg
  cmd : ∀ m, st.msg = some m → s.msgs.read m = some st.cmd
  queue : Queued s.msgs st.msg s.lmq.items
  ops : s.ops = st.ops
  sending : s.sending = st.sending
  atDrain : s.atDrain = st.atDrain
  atConnect : s.atConnect = st.atConnect

namespace Queued

variable {h h' : OwnedHeap HookCmd} {held : Option ℕ} {l : List ℕ} {m : ℕ}

theorem release (hq : Queued h (some m) l) (hfree : h.free m = some h') : Queued h' none l := by
  obtain ⟨-, -, hframe⟩ := OwnedHeap.of_free hfree
  refine ⟨hq.nodup, fun q hmem => ?_, fun _ _ => nofun⟩
  rw [hframe q (fun heq => hq.apart q hmem (congrArg some heq.symm)), hq.fresh q hmem]

theorem take (hq : Queued h none (m :: l)) : Queued h (some m) l := by
  obtain ⟨hnot, hnodup⟩ := List.nodup_cons.mp hq.nodup
  refine ⟨hnodup, fun q hmem => hq.fresh q (List.mem_cons_of_mem m hmem), fun q hmem heq => ?_⟩
  obtain rfl := Option.some.inj heq
  exact hnot hmem

theorem tail (hq : Queued h held (m :: l)) : Queued h held l :=
  ⟨(List.nodup_cons.mp hq.nodup).2, fun q hmem => hq.fresh q (List.mem_cons_of_mem m hmem),
    fun q hmem => hq.apart q (List.mem_cons_of_mem m hmem)⟩

theorem alloc (hq : Queued h held l) : Queued (h.alloc .other) held l :=
  ⟨hq.nodup, fun q hmem => by
    rw [OwnedHeap.read_alloc_of_lt _ (OwnedHeap.lt_size_of_read (hq.fresh q hmem)),
      hq.fresh q hmem], hq.apart⟩

theorem concat (hq : Queued h held l) (hm : h.read m = some .other) (hnot : m ∉ l)
    (hheld : held ≠ some m) : Queued h held (l ++ [m]) where
  nodup := List.nodup_append.mpr ⟨hq.nodup, List.nodup_singleton m, by
    intro q hmem q' hmem' heq
    rw [heq, List.mem_singleton.mp hmem'] at hmem
    exact hnot hmem⟩
  fresh := fun q hmem => by
    rcases List.mem_append.mp hmem with hmem | hmem
    · exact hq.fresh q hmem
    · rw [List.mem_singleton.mp hmem, hm]
  apart := fun q hmem => by
    rcases List.mem_append.mp hmem with hmem | hmem
    · exact hq.apart q hmem
    · rw [List.mem_singleton.mp hmem]
      exact hheld

theorem congr (hq : Queued h held l) (hframe : ∀ q ∈ l, h'.read q = h.read q) :
    Queued h' held l :=
  ⟨hq.nodup, fun q hmem => (hframe q hmem).trans (hq.fresh q hmem), hq.apart⟩

end Queued

namespace HookRes

variable {s : HookRes} {st : HookStage} {m c k r : ℕ}

theorem At.exists_failed (hs : At st s) (hm : st.msg = some m) (hdrain : st.atDrain = 0)
    (hconnect : st.atConnect = 0) (hsending : st.sending = false) :
    ∃ s', failed { s with ops := [] } = some s' ∧ At .draining s' := by
  obtain ⟨msgs, hfree⟩ := OwnedHeap.exists_free (hs.cmd m hm)
  obtain ⟨conn, hconn, hconnSole, hconnPtr⟩ := hs.conn.exists_releaseIf
  obtain ⟨req, hreq, hreqSole, hreqPtr⟩ := hs.req.exists_releaseIf
  obtain ⟨client, hclient, hclientSole, hclientPtr⟩ := hs.client.exists_releaseIf
  have hqueue := hs.queue
  rw [hm] at hqueue
  simp only [failed, lock, freeMsg, unlock, hs.mutex, hs.msg, hm, hfree, hconn, hreq, hclient,
    Option.bind_eq_bind, Option.bind_some, Option.map_some, Option.elim_some, if_true,
    Bool.false_eq_true, if_false]
  refine ⟨_, rfl, rfl, hclientSole, hclientPtr, hconnSole, hconnPtr, hreqSole, hreqPtr, nofun, rfl,
    nofun, hqueue.release hfree, rfl, ?_, ?_, ?_⟩
  · exact hs.sending.trans hsending
  · exact congrArg (· + 1) (hs.atDrain.trans hdrain)
  · exact hs.atConnect.trans hconnect

theorem At.exists_sent (hs : At (.writing m c k r) s) (conn reqAlloc : Bool) :
    ∃ s', succeeded conn reqAlloc { s with ops := [] } = some s' ∧ At .draining s' := by
  have hm : s.msgs.read m = some .httpReq := hs.cmd m rfl
  obtain ⟨msgs, hfree⟩ := OwnedHeap.exists_free hm
  obtain ⟨conn', hconn, hconnSole, hconnPtr⟩ := hs.conn.exists_release hs.connPtr
  obtain ⟨req, hreq, hreqSole, hreqPtr⟩ := hs.req.exists_release hs.reqPtr
  obtain ⟨client, hclient, hclientSole, hclientPtr⟩ := hs.client.exists_release hs.clientPtr
  have hmsg : s.aioMsg = some m := hs.msg
  simp only [succeeded, requestSent, lock, freeMsg, unlock, hs.mutex, hmsg, hm, hfree, hconn, hreq,
    hclient, Option.bind_eq_bind, Option.bind_some, Option.map_some, if_true, Bool.false_eq_true,
    if_false]
  exact ⟨_, rfl, rfl, hclientSole, hclientPtr, hconnSole, hconnPtr, hreqSole, hreqPtr, nofun, rfl,
    nofun, hs.queue.release hfree, rfl, hs.sending, congrArg (· + 1) hs.atDrain, hs.atConnect⟩

theorem At.exists_noConn (hs : At (.connecting m c) s) (reqAlloc : Bool) :
    ∃ s', succeeded false reqAlloc { s with ops := [] } = some s' ∧ At .draining s' := by
  have hm : s.msgs.read m = some .other := hs.cmd m rfl
  obtain ⟨msgs, hfree⟩ := OwnedHeap.exists_free hm
  obtain ⟨client, hclient, hclientSole, hclientPtr⟩ := hs.client.exists_release hs.clientPtr
  have hmsg : s.aioMsg = some m := hs.msg
  have hnull : s.conn.ptr = none := hs.connPtr
  have hconn : (⟨s.conn.heap, none⟩ : OwnerSlot Unit) = s.conn := by rw [← hnull]
  simp only [succeeded, connected, noConn, lock, freeMsg, unlock, hs.mutex, hmsg, hm, hfree,
    hclient, hconn, Option.bind_eq_bind, Option.bind_some, Option.map_some, if_true,
    Bool.false_eq_true, if_false]
  exact ⟨_, rfl, rfl, hclientSole, hclientPtr, hs.conn, hs.connPtr, hs.req, hs.reqPtr, nofun, rfl,
    nofun, hs.queue.release hfree, rfl, hs.sending, congrArg (· + 1) hs.atDrain, hs.atConnect⟩

theorem At.exists_noReq (hs : At (.connecting m c) s) :
    ∃ s', succeeded true false { s with ops := [] } = some s' ∧ At .draining s' := by
  have hm : s.msgs.read m = some .other := hs.cmd m rfl
  obtain ⟨msgs, hfree⟩ := OwnedHeap.exists_free hm
  have hcreate := OwnerSlot.create_of_null hs.connPtr ()
  obtain ⟨conn, hconn, hconnSole, hconnPtr⟩ := (hs.conn.alloc hs.connPtr ()).exists_release rfl
  obtain ⟨client, hclient, hclientSole, hclientPtr⟩ := hs.client.exists_release hs.clientPtr
  have hmsg : s.aioMsg = some m := hs.msg
  simp only [succeeded, connected, noReq, lock, freeMsg, unlock, hs.mutex, hmsg, hm, hfree, hcreate,
    hconn, hclient, Option.bind_eq_bind, Option.bind_some, Option.map_some, if_true,
    Bool.false_eq_true, if_false]
  exact ⟨_, rfl, rfl, hclientSole, hclientPtr, hconnSole, hconnPtr, hs.req, hs.reqPtr, nofun, rfl,
    nofun, hs.queue.release hfree, rfl, hs.sending, congrArg (· + 1) hs.atDrain, hs.atConnect⟩

theorem At.exists_written (hs : At (.connecting m c) s) :
    ∃ s' k r, succeeded true true { s with ops := [] } = some s' ∧ At (.writing m c k r) s' := by
  have hm : s.msgs.read m = some .other := hs.cmd m rfl
  obtain ⟨msgs, hwrite, hread, hmoved⟩ := OwnedHeap.exists_write hm .httpReq
  have hmsg : s.aioMsg = some m := hs.msg
  have hqueue : Queued msgs (some m) s.lmq.items := by
    refine hs.queue.congr (fun q hmem => hmoved.frame q ?_ (hs.queue.apart q hmem))
    exact OwnedHeap.lt_size_of_read (hs.queue.fresh q hmem)
  simp only [succeeded, connected, writeReq, submitWrite, lock, unlock, hs.mutex, hmsg, hm, hwrite,
    OwnerSlot.create_of_null hs.connPtr, OwnerSlot.create_of_null hs.reqPtr,
    OwnedHeap.read_alloc_self, Option.bind_eq_bind, Option.bind_some, if_true,
    Bool.false_eq_true, if_false, List.nil_append]
  refine ⟨_, s.conn.heap.size, s.req.heap.size, rfl, rfl, hs.client, hs.clientPtr,
    hs.conn.alloc hs.connPtr (), rfl, hs.req.alloc hs.reqPtr m, rfl, ?_, rfl, ?_, hqueue, rfl,
    hs.sending, hs.atDrain, hs.atConnect⟩
  · intro r hr
    obtain rfl := Option.some.inj hr
    exact s.req.heap.read_alloc_self m
  · intro m' hm'
    obtain rfl := Option.some.inj hm'
    exact hread

theorem At.exists_drainQueue (hs : At .draining s) (clientAlloc : Bool) :
    ∃ s' st', drainQueue clientAlloc { s with atDrain := 0 } = some s' ∧ At st' s' := by
  cases hget : s.lmq.get with
  | none =>
    simp only [drainQueue, lock, unlock, hs.mutex, hget, Option.bind_eq_bind, Option.bind_some,
      if_true, Bool.false_eq_true, if_false]
    exact ⟨_, .idle, rfl, rfl, hs.client, hs.clientPtr, hs.conn, hs.connPtr, hs.req, hs.reqPtr,
      hs.data, hs.msg, nofun, hs.queue, hs.ops, hs.sending, rfl, hs.atConnect⟩
  | some p =>
    obtain ⟨m, lmq⟩ := p
    have hitems := (BoundedFifo.items_of_get hget).1
    have hqueue := hs.queue
    rw [hitems] at hqueue
    have hm : s.msgs.read m = some .other := hqueue.fresh m List.mem_cons_self
    cases clientAlloc with
    | false =>
      obtain ⟨msgs, hfree⟩ := OwnedHeap.exists_free hm
      simp only [drainQueue, lock, freeMsg, unlock, hs.mutex, hget, hfree, Option.bind_eq_bind,
        Option.bind_some, Option.map_some, if_true, Bool.false_eq_true, if_false]
      exact ⟨_, .idle, rfl, rfl, hs.client, hs.clientPtr, hs.conn, hs.connPtr, hs.req, hs.reqPtr,
        nofun, hs.msg, nofun, hqueue.take.release hfree, hs.ops, hs.sending, rfl, hs.atConnect⟩
    | true =>
      simp only [drainQueue, lock, unlock, hs.mutex, hget, OwnerSlot.create_of_null hs.clientPtr,
        Option.bind_eq_bind, Option.bind_some, if_true, Bool.false_eq_true, if_false]
      refine ⟨_, .pending m s.client.heap.size false, rfl, rfl, hs.client.alloc hs.clientPtr (),
        rfl, hs.conn, hs.connPtr, hs.req, hs.reqPtr, nofun, rfl, ?_, hqueue.take, hs.ops,
        hs.sending, rfl, congrArg (· + 1) hs.atConnect⟩
      intro m' hm'
      obtain rfl := Option.some.inj hm'
      exact hm

theorem At.exists_submitConnect {sender : Bool} (hs : At (.pending m c sender) s) (atExit : ℕ) :
    ∃ s', submitConnect { s with sending := false, atConnect := 0, atExit := atExit } = some s' ∧
      At (.connecting m c) s' := by
  obtain ⟨x, hx⟩ := Option.isSome_iff_exists.mp (hs.client.isSome_read hs.clientPtr)
  have hclient : s.client.ptr = some c := hs.clientPtr
  have hops : s.ops = [] := hs.ops
  simp only [submitConnect, hclient, hx, hops, Option.bind_eq_bind, Option.bind_some,
    List.nil_append]
  exact ⟨_, rfl, hs.mutex, hs.client, hs.clientPtr, hs.conn, hs.connPtr, hs.req, hs.reqPtr, nofun,
    hs.msg, hs.cmd, hs.queue, rfl, rfl, hs.atDrain, rfl⟩

end HookRes

end NanoMQ
