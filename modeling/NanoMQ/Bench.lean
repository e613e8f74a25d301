import Mathlib.Data.Int.Notation
import Mathlib.Data.Nat.Notation
import Mathlib.Logic.Function.Basic

/-!
# The publishing benchmark

Every work of `nanomq_cli bench pub` runs `pub_cb`: called once from the main thread and then each
time its operation is done, it increments `send_cnt`, compares it to `send_limit` and submits a
PUBLISH or ends. The calls of different works run at the same time, so each access to an atomic
variable is a step of its own, and steps of the works come in any order. The two reads of the
comparison come in either order.
-/

namespace NanoMQ

inductive NnbState
  | init | recv | wait | send
  deriving DecidableEq

/-- Where a work is in `pub_cb`: not in it, with an operation under way or the first call to come;
before the increment; with what it has read for the comparison; before `nng_ctx_send`; or done, with
nothing that would call it again. -/
inductive PubPlace
  | resting
  | counting
  | comparing (cnt limit : Option Int32)
  | sending
  | stopped
  deriving DecidableEq

structure BenchWork where
  state : NnbState
  lastSendTs : UInt64
  place : PubPlace
  deriving DecidableEq

structure Bench (ι : Type*) where
  sendCnt : Int32
  sendLimit : Int32
  works : ι → BenchWork
  submitted : ℕ
  exited : Bool

/-- A step of a work. A call has the result of the operation and the clock. -/
inductive BenchEvent
  | call (rv : ℤ) (now : UInt64)
  | inc
  | getCnt
  | getLimit
  | compare
  | submit (now : UInt64)

section Model

variable {ι : Type*} [DecidableEq ι]

def Bench.set (b : Bench ι) (i : ι) (w : BenchWork) : Bench ι :=
  { b with works := Function.update b.works i w }

def Bench.enterSend (b : Bench ι) (i : ι) (w : BenchWork) (rv : ℤ) : Bench ι :=
  if rv ≠ 0 then { b.set i w with exited := true } else b.set i { w with place := .counting }

def overdue (w : BenchWork) (interval : Int32) (now : UInt64) : ℤ :=
  (now - w.lastSendTs - UInt64.ofInt interval.toInt).toInt64.toInt

def Bench.wait (interval : Int32) (b : Bench ι) (i : ι) (w : BenchWork) (rv : ℤ) (now : UInt64) :
    Bench ι :=
  if 1 ≤ interval.toInt then
    let late : BenchWork :=
      ⟨.send, w.lastSendTs + UInt64.ofInt interval.toInt, w.place⟩
    if overdue w interval now < interval.toInt then b.set i late else b.enterSend i late rv
  else b.enterSend i { w with state := .send } rv

def Bench.call (interval : Int32) (b : Bench ι) (i : ι) (w : BenchWork) (rv : ℤ) (now : UInt64) :
    Bench ι :=
  match w.state with
  | .init => b.set i { w with place := .counting }
  | .wait => b.wait interval i w rv now
  | .send => b.enterSend i w rv
  | .recv => b.set i { w with place := .stopped }

/-- `nng_ctx_send` of a PUBLISH; only case `INIT` looks at the clock. -/
def Bench.submit (b : Bench ι) (i : ι) (w : BenchWork) (now : UInt64) : Bench ι :=
  { b.set i ⟨.wait, if w.state = .init then now else w.lastSendTs, .resting⟩ with
    submitted := b.submitted + 1 }

/-- One step of a work, undefined where the work is not about to make it. -/
def benchStep (interval : Int32) (b : Bench ι) (e : ι × BenchEvent) : Option (Bench ι) :=
  let w := b.works e.1
  if b.exited then none
  else
    match w.place, e.2 with
    | .resting, .call rv now => some (b.call interval e.1 w rv now)
    | .counting, .inc =>
        some { b.set e.1 { w with place := .comparing none none } with sendCnt := b.sendCnt + 1 }
    | .comparing none limit, .getCnt =>
        some (b.set e.1 { w with place := .comparing (some b.sendCnt) limit })
    | .comparing cnt none, .getLimit =>
        some (b.set e.1 { w with place := .comparing cnt (some b.sendLimit) })
    | .comparing (some cnt) (some limit), .compare =>
        some (b.set e.1 { w with place := if limit < cnt then .stopped else .sending })
    | .sending, .submit now => some (b.submit e.1 w now)
    | _, _ => none

/-- The state `bench_start` leaves: no limit is the largest one, and each work is to be called. -/
def benchStart (limit : Int32) : Bench ι where
  sendCnt := 0
  sendLimit := if limit = 0 then Int32.maxValue else limit
  works _ := ⟨.init, 0, .resting⟩
  submitted := 0
  exited := false

end Model

end NanoMQ
