import NanoMQ.OwnerSlot
import NanoMQ.WebhookQueue

/-!
# The resources of a webhook request

The functions of `WebhookQueue` with what they allocate and free: the client, the connection and the
request of the work, the messages, and the mutex. It is a fault to use what was freed, to release it
once more, to create an object before the one of its kind is released, and to take the mutex or give
it back twice.

The steps are the critical sections, and what is outside of them: `send_msg` and `http_aio_cb` call
`nng_http_client_connect` behind the section, and `http_aio_cb` gives the mutex back before it takes
it again at `drain`. Several calls of `http_aio_cb` may be on their way out at a time. There is no
operation here that leaves a response at the `aio`, so the branches for one are left out.
-/

namespace NanoMQ

inductive HookCmd
  | other
  | httpReq
  | httpRes
  deriving DecidableEq

/-- What is outstanding at the `http_aio`, with the objects it works on. -/
inductive HttpOp
  | connect (client : ℕ)
  | write (conn req : ℕ)
  deriving DecidableEq

/-- `hook_work`. A request is kept with the message that its data are. `sending` says that
`send_msg` is before its call of `nng_http_client_connect`; the counters say how many calls of
`http_aio_cb` are before `drain`, before their call of `nng_http_client_connect`, and on their way
out. -/
structure HookRes where
  client : OwnerSlot Unit
  conn : OwnerSlot Unit
  req : OwnerSlot ℕ
  msgs : OwnedHeap HookCmd
  aioMsg : Option ℕ
  lmq : BoundedFifo ℕ
  locked : Bool
  ops : List HttpOp
  sending : Bool
  atDrain : ℕ
  atConnect : ℕ
  atExit : ℕ

namespace HookRes

def alloc : HookRes where
  client := .null
  conn := .null
  req := .null
  msgs := .empty
  aioMsg := none
  lmq := .empty 16
  locked := false
  ops := []
  sending := false
  atDrain := 0
  atConnect := 0
  atExit := 0

/-- `nng_aio_busy`: from the submission of an operation until the callback has returned. -/
def busy (s : HookRes) : Bool := s.ops ≠ [] ∨ s.atDrain + s.atConnect + s.atExit ≠ 0

def lock (s : HookRes) : Option HookRes :=
  if s.locked then none else some { s with locked := true }

def unlock (s : HookRes) : Option HookRes :=
  if s.locked then some { s with locked := false } else none

def freeMsg (s : HookRes) (m : ℕ) : Option HookRes :=
  (s.msgs.free m).map (fun msgs => { s with msgs := msgs })

def submitConnect (s : HookRes) : Option HookRes := do
  let c ← s.client.ptr
  let _ ← s.client.heap.read c
  some { s with ops := s.ops ++ [.connect c] }

def submitWrite (s : HookRes) : Option HookRes := do
  let k ← s.conn.ptr
  let _ ← s.conn.heap.read k
  let r ← s.req.ptr
  let _ ← s.req.heap.read r
  some { s with ops := s.ops ++ [.write k r] }

def enqueue (s : HookRes) (m : ℕ) : Option HookRes :=
  match (if s.lmq.full then s.lmq.grow else s.lmq).put m with
  | some lmq => some { s with lmq := lmq }
  | none => s.freeMsg m

/-- The section of `send_msg`, for a message or for `NULL`. A message for which no client can be
allocated is not freed. -/
def sendMsg (clientAlloc : Bool) (msg : Option ℕ) (s : HookRes) : Option HookRes := do
  let s ← s.lock
  match msg.elim s.lmq.get (fun m => some (m, s.lmq)) with
  | none => s.unlock
  | some (m, lmq) =>
      let s := { s with lmq := lmq }
      if s.busy then do
        let s ← s.enqueue m
        s.unlock
      else if clientAlloc then do
        let client ← s.client.create ()
        unlock { s with client := client, aioMsg := some m, sending := true }
      else s.unlock

def failed (s : HookRes) : Option HookRes := do
  let s ← s.lock
  let s ← s.aioMsg.elim (some s) (fun m => freeMsg { s with aioMsg := none } m)
  let conn ← s.conn.releaseIf
  let req ← s.req.releaseIf
  let client ← s.client.releaseIf
  unlock { s with conn := conn, req := req, client := client, atDrain := s.atDrain + 1 }

def requestSent (m : ℕ) (s : HookRes) : Option HookRes := do
  let s ← s.freeMsg m
  let conn ← s.conn.release
  let req ← s.req.release
  let client ← s.client.release
  unlock { s with conn := conn, req := req, client := client, atDrain := s.atDrain + 1 }

def noConn (m : ℕ) (s : HookRes) : Option HookRes := do
  let s ← s.freeMsg m
  let client ← s.client.release
  unlock { s with client := client, atDrain := s.atDrain + 1 }

def noReq (m : ℕ) (s : HookRes) : Option HookRes := do
  let s ← s.freeMsg m
  let conn ← s.conn.release
  let client ← s.client.release
  unlock { s with conn := conn, client := client, atDrain := s.atDrain + 1 }

/-- The rest of the section that writes the request. The mutex is given back behind the submission,
which is the last that this call does. -/
def writeReq (m : ℕ) (s : HookRes) : Option HookRes := do
  let req ← s.req.create m
  let msgs ← s.msgs.write m .httpReq
  let s ← submitWrite { s with req := req, msgs := msgs, aioMsg := some m }
  unlock { s with atExit := s.atExit + 1 }

/-- The rest of the section when the connection is there, or `NULL` in its place. -/
def connected (conn reqAlloc : Bool) (m : ℕ) (s : HookRes) : Option HookRes :=
  if conn then do
    let conn ← s.conn.create ()
    if reqAlloc then writeReq m { s with conn := conn } else noReq m { s with conn := conn }
  else noConn m { s with conn := ⟨s.conn.heap, none⟩ }

def succeeded (conn reqAlloc : Bool) (s : HookRes) : Option HookRes := do
  let s ← s.lock
  match s.aioMsg with
  | none => unlock { s with atDrain := s.atDrain + 1 }
  | some m =>
      match s.msgs.read m with
      | none => none
      | some .other => connected conn reqAlloc m { s with aioMsg := none }
      | some _ => requestSent m { s with aioMsg := none }

def drainQueue (clientAlloc : Bool) (s : HookRes) : Option HookRes := do
  let s ← s.lock
  match s.lmq.get with
  | none => unlock { s with atExit := s.atExit + 1 }
  | some (m, lmq) =>
      if clientAlloc then do
        let client ← s.client.create ()
        unlock { s with
          lmq := lmq, client := client, aioMsg := some m, atConnect := s.atConnect + 1 }
      else do
        let s ← freeMsg { s with lmq := lmq } m
        unlock { s with atExit := s.atExit + 1 }

def Usable (s : HookRes) : HttpOp → Prop
  | .connect c => (s.client.heap.read c).isSome = true
  | .write k r =>
      (s.conn.heap.read k).isSome = true ∧ ((s.req.heap.read r).bind s.msgs.read).isSome = true

instance (s : HookRes) (op : HttpOp) : Decidable (s.Usable op) :=
  match op with
  | .connect c => inferInstanceAs (Decidable ((s.client.heap.read c).isSome = true))
  | .write k r =>
      inferInstanceAs (Decidable ((s.conn.heap.read k).isSome = true ∧
        ((s.req.heap.read r).bind s.msgs.read).isSome = true))

def complete (callback : HookRes → Option HookRes) (s : HookRes) : Option HookRes :=
  match s.ops with
  | [] => some s
  | op :: ops => if s.Usable op then callback { s with ops := ops } else none

end HookRes

inductive HookResEvent
  | arrive (clientAlloc : Bool)
  | pull (clientAlloc : Bool)
  | senderConnects
  | succeeds (conn reqAlloc : Bool)
  | fails
  | drains (clientAlloc : Bool)
  | callbackConnects
  | callbackReturns
  deriving DecidableEq

/-- One step. What cannot happen in a state leaves it as it is. There is one `send_msg` at a time.
-/
def hookResStep (s : HookRes) : HookResEvent → Option HookRes
  | .arrive clientAlloc =>
      if s.sending then some s
      else HookRes.sendMsg clientAlloc (some s.msgs.size) { s with msgs := s.msgs.alloc .other }
  | .pull clientAlloc => if s.sending then some s else s.sendMsg clientAlloc none
  | .senderConnects =>
      if s.sending then HookRes.submitConnect { s with sending := false } else some s
  | .succeeds conn reqAlloc => s.complete (·.succeeded conn reqAlloc)
  | .fails => s.complete (·.failed)
  | .drains clientAlloc =>
      if s.atDrain = 0 then some s
      else HookRes.drainQueue clientAlloc { s with atDrain := s.atDrain - 1 }
  | .callbackConnects =>
      if s.atConnect = 0 then some s
      else HookRes.submitConnect { s with atConnect := s.atConnect - 1, atExit := s.atExit + 1 }
  | .callbackReturns => some { s with atExit := s.atExit - 1 }

end NanoMQ
