import NanoMQ.ByteBuffer
import NanoMQ.OwnedHeap
import Mathlib.Logic.Function.Basic

/-!
# The REST server

`web_server.c` answers HTTP requests. `rest_handle` takes a job from the free list or makes a new
one, sends the request through a context of its own to the works behind `inproc://rest`, and leaves
the rest to `rest_job_cb`, which is called when the message was sent and again when the reply is
there. Any number of these functions are at work at the same time; what they share is the free list,
which has a mutex.

A task is such a function at a point from where it goes on, or an operation that is outstanding at
the `aio` of a job. One step takes one task on to its next point, and there is a point before
everything that may fail and before everything that others can see. It is a fault to use a response
or a request that is `NULL`, to free a response or a message twice or to finish an HTTP request
twice.

The contexts have numbers that are not given out again, so that to close a context once more has no
effect. What was sent through a context may be received by a work from then on, more than once if it
is sent again, and a context receives only replies to what was sent through it. Message bodies are
values here: the texts behind the pointers of an `http_msg` are not objects of their own, so that
nothing is said about the memory that `put_http_msg` allocates for them and `destory_http_msg`
frees, and `put_http_msg` never fails. An error at a work ends the program and has no step.
-/

namespace NanoMQ

open ByteBuffer

/-- `http_msg`, with nothing for a text that is `NULL`. -/
structure HttpMsg where
  status : ℕ
  contentType : Option Bytes
  method : Option Bytes
  uri : Option Bytes
  token : Option Bytes
  data : Option Bytes
  deriving DecidableEq

def HttpMsg.zero : HttpMsg := ⟨0, none, none, none, none, none⟩

def putHttpMsg (msg : HttpMsg) (contentType method uri token data : Option Bytes) : HttpMsg where
  status := msg.status
  contentType := contentType.or msg.contentType
  method := method.or msg.method
  uri := uri.or msg.uri
  token := token.or msg.token
  data := data.or msg.data

structure HttpReq where
  uri : Option Bytes
  method : Option Bytes
  contentType : Option Bytes
  authorization : Option Bytes
  data : Option Bytes
  deriving DecidableEq

def HttpReq.toMsg (req : HttpReq) : HttpMsg :=
  putHttpMsg .zero req.contentType req.method req.uri req.authorization req.data

structure HttpRes where
  status : ℕ
  reason : Option Bytes
  contentType : Option Bytes
  cookies : Option Bytes
  data : Bytes
  deriving DecidableEq

def HttpRes.new : HttpRes := ⟨200, none, none, none, []⟩

/-- A header is set from a text that is not empty. -/
def headerOf (old text : Option Bytes) : Option Bytes :=
  if 0 < (text.getD []).length then text else old

def HttpRes.fill (res : HttpRes) (msg : HttpMsg) : HttpRes where
  status := msg.status
  reason := res.reason
  contentType := headerOf res.contentType msg.contentType
  cookies := headerOf res.cookies msg.token
  data := msg.data.getD []

/-- The response of `rest_http_fatal`; the reason is cut to its buffer. -/
def HttpRes.fatal (res : HttpRes) (reason : Bytes) : HttpRes :=
  { res with status := 500, reason := some (reason.take 127) }

inductive JobState
  | sendReq | recvRep
  deriving DecidableEq

/-- `rest_job`. The place of a job on the free list is in `RestServer`. -/
structure RestJob where
  httpAio : Option ℕ
  httpRes : Option ℕ
  state : JobState
  msg : Option ℕ
  ctx : Option ℕ
  deriving DecidableEq

def RestJob.zero : RestJob := ⟨none, none, .sendReq, none, none⟩

inductive RestTask
  /-- `rest_handle` at its start -/
  | handle (aio : ℕ)
  /-- `rest_handle` before `nng_http_res_alloc` -/
  | allocRes (aio job : ℕ)
  /-- `rest_handle` before `nng_ctx_open` -/
  | openCtx (aio job : ℕ)
  /-- `rest_handle` before `nng_msg_alloc` -/
  | allocMsg (aio job : ℕ)
  /-- the operation at the `aio` of the job, and then `rest_job_cb` -/
  | outstanding (job : ℕ)
  /-- `rest_job_cb` with a reply, before `nng_http_res_copy_data` -/
  | copyData (job : ℕ)
  /-- `rest_http_fatal` -/
  | fatal (job : ℕ) (reason : Bytes)
  /-- `rest_recycle_job`, and the result with which `rest_handle` finishes its request behind it -/
  | recycle (job : ℕ) (after : Option (ℕ × ℕ))
  /-- `rest_recycle_job` before its section -/
  | giveBack (job : ℕ) (after : Option (ℕ × ℕ))
  /-- `nng_aio_finish` without a response -/
  | finish (aio rv : ℕ)
  deriving DecidableEq

inductive HttpOutcome
  | failed (rv : ℕ)
  | response (res : HttpRes)
  deriving DecidableEq

inductive SrvState
  | init | recv | send
  deriving DecidableEq

/-- The server: the HTTP requests so far, by number, with those that are finished; the jobs; the
works. `opened` are the requests for which the contexts were opened, `sent` is what was sent through
them, and `replies` are the answers of `process_request` to that. -/
structure RestServer where
  requests : List HttpReq
  finished : List (ℕ × HttpOutcome)
  jobs : ℕ → RestJob
  jobCount : ℕ
  freelist : List ℕ
  ress : OwnedHeap HttpRes
  msgs : OwnedHeap HttpMsg
  ctxs : OwnedHeap Unit
  opened : List ℕ
  sent : List (ℕ × HttpMsg)
  replies : List (ℕ × HttpMsg × HttpMsg)
  works : List SrvState

namespace RestServer

def start (parallel : ℕ) : RestServer where
  requests := []
  finished := []
  jobs := fun _ => .zero
  jobCount := 0
  freelist := []
  ress := .empty
  msgs := .empty
  ctxs := .empty
  opened := []
  sent := []
  replies := []
  works := List.replicate parallel .init

def setJob (s : RestServer) (j : ℕ) (job : RestJob) : RestServer :=
  { s with jobs := Function.update s.jobs j job }

def finishAio (s : RestServer) (a : ℕ) (o : HttpOutcome) : Option RestServer :=
  if a ∈ s.finished.map Prod.fst then none else some { s with finished := (a, o) :: s.finished }

/-- A request is finished with the response of a job, which is its no more. -/
def respond (s : RestServer) (j : ℕ) (fill : HttpRes → HttpRes) : Option RestServer := do
  let a ← (s.jobs j).httpAio
  let r ← (s.jobs j).httpRes
  let res ← s.ress.read r
  let ress ← s.ress.free r
  let s ← s.finishAio a (.response (fill res))
  some { s.setJob j { s.jobs j with httpAio := none, httpRes := none } with ress := ress }

/-- `nng_ctx_close`, which has no effect on a context that is closed. -/
def closeCtx (s : RestServer) (c : Option ℕ) : RestServer :=
  { s with ctxs := (s.ctxs.freeOpt c).getD s.ctxs }

def getJob (s : RestServer) (rv : ℕ) : Option (ℕ × RestServer) :=
  match s.freelist with
  | j :: freelist => some (j, { s with freelist := freelist })
  | [] =>
      if rv = 0 then
        some (s.jobCount, { s.setJob s.jobCount .zero with jobCount := s.jobCount + 1 })
      else none

def enomem : ℕ := 2

/-- What a task does up to its next point, where `rv` is the result of the operation that may fail.
The operation to receive has no result without a message here. -/
def act (strerror : ℕ → Bytes) (s : RestServer) (rv : ℕ) :
    RestTask → Option (Option RestTask × RestServer)
  | .handle a =>
      match s.getJob rv with
      | some (j, s) => some (some (.allocRes a j), s)
      | none => some (some (.finish a enomem), s)
  | .allocRes a j =>
      if rv = 0 then
        some (some (.openCtx a j), { s.setJob j { s.jobs j with httpRes := some s.ress.size } with
          ress := s.ress.alloc .new })
      else some (some (.recycle j (some (a, rv))), s)
  | .openCtx a j =>
      if rv = 0 then
        some (some (.allocMsg a j), { s.setJob j { s.jobs j with ctx := some s.ctxs.size } with
          ctxs := s.ctxs.alloc (), opened := s.opened ++ [a] })
      else some (some (.recycle j (some (a, rv))), s)
  | .allocMsg a j => do
      let req ← s.requests[a]?
      let job := { s.jobs j with httpAio := some a }
      if rv = 0 then
        some (some (.outstanding j),
          { s.setJob j { job with msg := some s.msgs.size, state := .sendReq } with
            msgs := s.msgs.alloc req.toMsg
            sent := (job.ctx.map (·, req.toMsg)).toList ++ s.sent })
      else some (some (.fatal j (ascii "nng_msg_alloc: " ++ strerror rv)), s.setJob j job)
  | .outstanding j =>
      match (s.jobs j).state with
      | .sendReq =>
          if rv ≠ 0 then some (some (.fatal j (ascii "send REQ failed: " ++ strerror rv)), s)
          else do
            let m ← (s.jobs j).msg
            let msgs ← s.msgs.free m
            some (some (.outstanding j),
              { s.setJob j { s.jobs j with msg := none, state := .recvRep } with msgs := msgs })
      | .recvRep =>
          if rv ≠ 0 then some (some (.fatal j (ascii "recv reply failed: " ++ strerror rv)), s)
          else some (some (.outstanding j), s)
  | .copyData j => do
      let m ← (s.jobs j).msg
      let reply ← s.msgs.read m
      if rv ≠ 0 then
        some (some (.fatal j (ascii "nng_http_res_copy_data: " ++ strerror rv)), s)
      else do
        let s ← s.respond j (·.fill reply)
        some (some (.recycle j none), s)
  | .fatal j reason => do
      let s ← s.respond j (·.fatal reason)
      some (some (.recycle j none), s)
  | .recycle j after => do
      let ress ← s.ress.freeOpt (s.jobs j).httpRes
      let msgs ← s.msgs.freeOpt (s.jobs j).msg
      some (some (.giveBack j after),
        { (s.closeCtx (s.jobs j).ctx).setJob j { s.jobs j with httpRes := none, msg := none } with
          ress := ress, msgs := msgs })
  | .giveBack j after =>
      some (after.map (fun p => .finish p.1 p.2), { s with freelist := j :: s.freelist })
  | .finish a rv => do
      let s ← s.finishAio a (.failed rv)
      some (none, s)

def deliver (s : RestServer) (c : ℕ) (reply : HttpMsg) : RestTask → Option (RestTask × RestServer)
  | .outstanding j =>
      if (s.jobs j).state = .recvRep ∧ (s.jobs j).ctx = some c then
        some (.copyData j, { s.setJob j { s.jobs j with msg := some s.msgs.size } with
          msgs := s.msgs.alloc reply })
      else none
  | _ => none

/-- `inproc_cb`, for the next of the received messages and the reply of `process_request` to it. -/
def inprocCb (s : RestServer) (w k : ℕ) (reply : HttpMsg) : RestServer :=
  match s.works[w]? with
  | none => s
  | some .init => { s with works := s.works.set w .recv }
  | some .recv =>
      match s.sent[k]? with
      | none => s
      | some (c, msg) =>
          { s with works := s.works.set w .send, replies := (c, msg, reply) :: s.replies }
  | some .send => { s with works := s.works.set w .recv }

end RestServer

structure RestSystem where
  server : RestServer
  tasks : List RestTask

inductive RestEvent
  /-- an HTTP request comes -/
  | arrive (req : HttpReq)
  /-- a task goes on -/
  | run (i rv : ℕ)
  /-- a reply comes to an outstanding operation -/
  | reply (i k : ℕ)
  /-- the callback of a work -/
  | work (w k : ℕ) (reply : HttpMsg)

/-- One step of the server. What cannot happen has no effect. -/
def restStep (strerror : ℕ → Bytes) : RestSystem → RestEvent → Option RestSystem
  | ⟨s, ts⟩, .arrive req =>
      some ⟨{ s with requests := s.requests ++ [req] }, .handle s.requests.length :: ts⟩
  | ⟨s, ts⟩, .run i rv =>
      match ts[i]? with
      | none => some ⟨s, ts⟩
      | some t => do
          let (t', s') ← s.act strerror rv t
          some ⟨s', t'.toList ++ ts.eraseIdx i⟩
  | ⟨s, ts⟩, .reply i k =>
      match ts[i]?, s.replies[k]? with
      | some t, some (c, _, reply) =>
          match s.deliver c reply t with
          | none => some ⟨s, ts⟩
          | some (t', s') => some ⟨s', t' :: ts.eraseIdx i⟩
      | _, _ => some ⟨s, ts⟩
  | ⟨s, ts⟩, .work w k reply => some ⟨s.inprocCb w k reply, ts⟩

end NanoMQ
