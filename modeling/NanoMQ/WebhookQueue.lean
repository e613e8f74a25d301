import NanoMQ.BoundedFifo
import NanoMQ.GuardedRun
import Mathlib.Data.List.Perm.Basic
import Mathlib.Data.List.Nodup

/-!
# Events on their way to a webhook

A `hook_work` sends one HTTP request at a time over its `http_aio`. `send_msg` starts the request of
an event if the `aio` is free and queues the event otherwise; `http_aio_cb` runs when an operation
on the `aio` has completed and, when a request is over, starts that of the oldest queued event. The
steps are the critical sections of the two functions. `http_aio_cb` has two, and the `aio` is busy
from the submission of an operation until the callback has returned, so also between the section
that looks into the queue and the return.

Events are numbered in the order of their arrival.
-/

namespace NanoMQ

/-- Where the `http_aio` of a work is: nothing outstanding and no callback running, an operation
outstanding for an event, the callback before the section at `drain`, the callback behind it with
nothing submitted. -/
inductive HttpPhase
  | idle
  | connecting (event : ℕ)
  | writing (event : ℕ)
  | draining
  | returning
  deriving DecidableEq

/-- `hook_work`, with the number of events that have arrived, those handed to
`nng_http_client_connect` and those freed behind a logged failure without having been handed
over. -/
structure HookWork where
  phase : HttpPhase
  lmq : BoundedFifo ℕ
  arrived : ℕ
  handed : List ℕ
  freed : List ℕ

inductive HookEvent
  | arrive (clientAlloc : Bool)
  | connected (conn reqAlloc : Bool)
  | written
  | aioError
  | drain (clientAlloc : Bool)
  | callbackReturns
  deriving DecidableEq

def HookWork.busy (w : HookWork) : Bool := w.phase ≠ .idle

/-- The branch of `send_msg` for a busy `aio`: a full queue is enlarged by half. -/
def HookWork.enqueue (w : HookWork) (msg : ℕ) : HookWork :=
  match (if w.lmq.full then w.lmq.grow else w.lmq).put msg with
  | some lmq => { w with lmq := lmq }
  | none => { w with freed := w.freed ++ [msg] }

def HookWork.connect (w : HookWork) (msg : ℕ) : HookWork :=
  { w with phase := .connecting msg, handed := w.handed ++ [msg] }

/-- `send_msg` for the next event. When no client can be allocated the message is not freed. -/
def HookWork.sendMsg (w : HookWork) (clientAlloc : Bool) : HookWork :=
  let next := { w with arrived := w.arrived + 1 }
  if w.busy then next.enqueue w.arrived
  else if clientAlloc then next.connect w.arrived
  else next

def HookWork.drainQueue (w : HookWork) (clientAlloc : Bool) : HookWork :=
  match w.lmq.get with
  | none => { w with phase := .returning }
  | some (msg, lmq) =>
      if clientAlloc then { w with lmq := lmq }.connect msg
      else { w with phase := .returning, lmq := lmq, freed := w.freed ++ [msg] }

/-- One critical section, or the return of the callback. What cannot happen in a phase leaves the
work as it is. -/
def hookStep (w : HookWork) : HookEvent → HookWork
  | .arrive clientAlloc => w.sendMsg clientAlloc
  | .connected conn reqAlloc =>
      match w.phase with
      | .connecting msg =>
          if conn && reqAlloc then { w with phase := .writing msg }
          else { w with phase := .draining }
      | _ => w
  | .written =>
      match w.phase with
      | .writing _ => { w with phase := .draining }
      | _ => w
  | .aioError =>
      match w.phase with
      | .connecting _ | .writing _ => { w with phase := .draining }
      | _ => w
  | .drain clientAlloc =>
      match w.phase with
      | .draining => w.drainQueue clientAlloc
      | _ => w
  | .callbackReturns =>
      match w.phase with
      | .returning => { w with phase := .idle }
      | _ => w

def HookWork.alloc : HookWork := ⟨.idle, BoundedFifo.empty 16, 0, [], []⟩

/-- Nothing waits while nothing is going on, events are handed over in the order of their arrival,
and each is in one place. -/
structure HookWork.Settled (w : HookWork) : Prop where
  drained : w.phase = .idle → w.lmq.items = []
  ordered : w.handed.Pairwise (· < ·)
  placed : (w.handed ++ (w.lmq.items ++ w.freed)).Perm (List.range w.arrived)

end NanoMQ
