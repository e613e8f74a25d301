import NanoMQ.OwnerTable
import NanoMQ.RestServer
import NanoMQ.TaskPool

/-!
# What a task of the REST server may do

A job is on the free list or with one task, and so is a request, with the task that is to finish it
or among those that are finished. Everything that a job points to is its own. `Advance` says what a
task may do to all of this in one step, the same for every point of the functions, and the
invariants of the server follow from it.
-/

namespace NanoMQ

open ByteBuffer TaskPool

namespace RestTask

def job : RestTask → Option ℕ
  | handle _ | finish _ _ => none
  | allocRes _ j | openCtx _ j | allocMsg _ j | outstanding j | copyData j | fatal j _
  | recycle j _ | giveBack j _ => some j

def aio (jobs : ℕ → RestJob) : RestTask → Option ℕ
  | handle a | allocRes a _ | openCtx a _ | allocMsg a _ | finish a _ => some a
  | outstanding j | copyData j | fatal j _ => (jobs j).httpAio
  | recycle _ after | giveBack _ after => after.map Prod.fst

def ctxJob : RestTask → Option ℕ
  | allocMsg _ j | outstanding j | copyData j | fatal j _ | recycle j _ => some j
  | handle _ | allocRes _ _ | openCtx _ _ | giveBack _ _ | finish _ _ => none

variable {t : RestTask} {jobs jobs' : ℕ → RestJob}

theorem job_of_ctxJob {j : ℕ} (h : t.ctxJob = some j) : t.job = some j := by
  cases t <;> first | exact h | cases h

theorem aio_congr (h : ∀ j, t.job = some j → jobs' j = jobs j) : t.aio jobs' = t.aio jobs := by
  cases t <;> first | rfl | exact congrArg RestJob.httpAio (h _ rfl)

end RestTask

def RestJob.Clean (job : RestJob) : Prop :=
  job.httpAio = none ∧ job.httpRes = none ∧ job.msg = none

namespace RestServer

variable {s s' : RestServer} {t u : RestTask} {t' : Option RestTask} {strerror : ℕ → Bytes}
  {j a rv : ℕ}

def OpenedFor (s : RestServer) (j a : ℕ) : Prop :=
  ∃ c, (s.jobs j).ctx = some c ∧ s.opened[c]? = some a

/-- A work got the message of the request through a context of this request, and the reply is what
`process_request` made of it. -/
def Served (s : RestServer) (a : ℕ) (reply : HttpMsg) : Prop :=
  ∃ req c, s.requests[a]? = some req ∧ s.opened[c]? = some a ∧ (c, req.toMsg, reply) ∈ s.replies

def Answers (s : RestServer) (a : ℕ) : HttpOutcome → Prop
  | .failed rv => rv ≠ 0
  | .response res =>
      (∃ reason, res = HttpRes.new.fatal reason) ∨
        ∃ reply, s.Served a reply ∧ res = HttpRes.new.fill reply

/-- What was sent through a context is the message of the request that it was opened for. -/
def Sends (s : RestServer) (c : ℕ) (msg : HttpMsg) : Prop :=
  ∃ a req, s.opened[c]? = some a ∧ s.requests[a]? = some req ∧ msg = req.toMsg

def Ready (s : RestServer) : RestTask → Prop
  | .handle _ => True
  | .allocRes _ j => (s.jobs j).Clean
  | .openCtx _ j =>
      (s.jobs j).httpAio = none ∧ (s.jobs j).httpRes.isSome = true ∧ (s.jobs j).msg = none
  | .allocMsg a j =>
      (s.jobs j).httpAio = none ∧ (s.jobs j).httpRes.isSome = true ∧ (s.jobs j).msg = none ∧
        s.OpenedFor j a
  | .outstanding j =>
      (s.jobs j).httpRes.isSome = true ∧
        ((s.jobs j).msg.isSome = true ↔ (s.jobs j).state = .sendReq) ∧
        ∃ a, (s.jobs j).httpAio = some a ∧ s.OpenedFor j a
  | .copyData j =>
      (s.jobs j).httpRes.isSome = true ∧ ∃ a m reply, (s.jobs j).httpAio = some a ∧
        (s.jobs j).msg = some m ∧ s.msgs.read m = some reply ∧ s.Served a reply
  | .fatal j _ => (s.jobs j).httpRes.isSome = true ∧ (s.jobs j).httpAio.isSome = true
  | .recycle j after => (s.jobs j).httpAio = none ∧ ∀ p ∈ after, p.2 ≠ 0
  | .giveBack j after => (s.jobs j).Clean ∧ ∀ p ∈ after, p.2 ≠ 0
  | .finish _ rv => rv ≠ 0

structure Extends (s s' : RestServer) : Prop where
  requests : s.requests <+: s'.requests
  opened : s.opened <+: s'.opened
  replies : ∀ x ∈ s.replies, x ∈ s'.replies

theorem getElem?_of_prefix {α : Type*} {l l' : List α} (h : l <+: l') {i : ℕ} {x : α}
    (hx : l[i]? = some x) : l'[i]? = some x := by
  obtain ⟨hi, rfl⟩ := List.getElem?_eq_some_iff.mp hx
  exact List.prefix_iff_getElem?.mp h i hi

namespace Extends

theorem served (h : s.Extends s') {reply : HttpMsg} (hserved : s.Served a reply) :
    s'.Served a reply := by
  obtain ⟨req, c, hreq, hc, hmem⟩ := hserved
  exact ⟨req, c, getElem?_of_prefix h.requests hreq, getElem?_of_prefix h.opened hc,
    h.replies _ hmem⟩

theorem openedFor (h : s.Extends s') (hctx : (s'.jobs j).ctx = (s.jobs j).ctx)
    (hopen : s.OpenedFor j a) : s'.OpenedFor j a := by
  obtain ⟨c, hc, hopened⟩ := hopen
  exact ⟨c, hctx.trans hc, getElem?_of_prefix h.opened hopened⟩

theorem answers (h : s.Extends s') {o : HttpOutcome} (ho : s.Answers a o) : s'.Answers a o := by
  cases o with
  | failed rv => exact ho
  | response res =>
    refine ho.imp_right ?_
    rintro ⟨reply, hserved, hres⟩
    exact ⟨reply, h.served hserved, hres⟩

theorem sends (h : s.Extends s') {c : ℕ} {msg : HttpMsg} (hs : s.Sends c msg) : s'.Sends c msg := by
  obtain ⟨a, req, ha, hreq, hmsg⟩ := hs
  exact ⟨a, req, getElem?_of_prefix h.opened ha, getElem?_of_prefix h.requests hreq, hmsg⟩

theorem ready (h : s.Extends s') (hjob : ∀ j, t.job = some j → s'.jobs j = s.jobs j)
    (hmsg : ∀ j m, t.job = some j → (s.jobs j).msg = some m → s'.msgs.read m = s.msgs.read m)
    (hready : s.Ready t) : s'.Ready t := by
  cases t with
  | handle a => trivial
  | finish a rv => exact hready
  | allocMsg a j =>
    rw [Ready, hjob j rfl]
    obtain ⟨haio, hres, hm, hopen⟩ := hready
    exact ⟨haio, hres, hm, h.openedFor (congrArg RestJob.ctx (hjob j rfl)) hopen⟩
  | outstanding j =>
    rw [Ready, hjob j rfl]
    obtain ⟨hres, hm, a, haio, hopen⟩ := hready
    exact ⟨hres, hm, a, haio, h.openedFor (congrArg RestJob.ctx (hjob j rfl)) hopen⟩
  | copyData j =>
    rw [Ready, hjob j rfl]
    obtain ⟨hres, a, m, reply, haio, hm, hread, hserved⟩ := hready
    rw [← hmsg j m rfl hm] at hread
    exact ⟨hres, a, m, reply, haio, hm, hread, h.served hserved⟩
  | allocRes _ j | openCtx _ j | fatal j _ | recycle j _ | giveBack j _ =>
    rw [Ready, hjob j rfl]
    exact hready

end Extends

/-- The objects belong to the jobs, the responses as they were allocated. -/
structure Owned (s : RestServer) : Prop where
  ress : s.ress.OwnedBy (fun j => (s.jobs j).httpRes)
  msgs : s.msgs.OwnedBy (fun j => (s.jobs j).msg)
  new : ∀ r res, s.ress.read r = some res → res = .new
  opened : s.opened.length = s.ctxs.size
  fresh : ∀ j, s.jobCount ≤ j → s.jobs j = .zero

theorem Owned.read_res (h : s.Owned) {r : ℕ} (hr : (s.jobs j).httpRes = some r) :
    s.ress.read r = some .new := by
  obtain ⟨res, hres⟩ := h.ress.exists_read hr
  rw [hres, h.new r res hres]

theorem Owned.read_msg (h : s.Owned) {m : ℕ} (hm : (s.jobs j).msg = some m) :
    (s.msgs.read m).isSome = true := (h.msgs.live m).mpr ⟨j, hm⟩

structure Advance (s : RestServer) (t : RestTask) (s' : RestServer) (t' : Option RestTask) :
    Prop where
  owned : s'.Owned
  history : s.Extends s'
  jobs : ∀ j, t.job ≠ some j → s'.jobs j = s.jobs j
  msgs : ∀ j m, t.job ≠ some j → (s.jobs j).msg = some m → s'.msgs.read m = s.msgs.read m
  holds : ∀ j, s'.freelist.count j + (if t'.bind RestTask.job = some j then 1 else 0) +
      (if j < s.jobCount then 1 else 0) =
    s.freelist.count j + (if t.job = some j then 1 else 0) + if j < s'.jobCount then 1 else 0
  free : ∀ j ∈ s'.freelist, j ∈ s.freelist ∨ t.job = some j ∧ (s'.jobs j).Clean
  aios : ∀ a, (s'.finished.map Prod.fst).count a +
      (if t'.bind (RestTask.aio s'.jobs) = some a then 1 else 0) =
    (s.finished.map Prod.fst).count a + if t.aio s.jobs = some a then 1 else 0
  requests : s'.requests = s.requests
  ready : ∀ u ∈ t', s'.Ready u
  ctxs : ∀ c, (s'.ctxs.read c).isSome = true →
    (∃ j, t'.bind RestTask.ctxJob = some j ∧ (s'.jobs j).ctx = some c) ∨
      (s.ctxs.read c).isSome = true ∧ ∀ j, t.ctxJob = some j → (s.jobs j).ctx ≠ some c
  sent : ∀ p ∈ s'.sent, s'.Sends p.1 p.2
  replies : s'.replies = s.replies
  finished : ∀ p ∈ s'.finished, p ∈ s.finished ∨ s'.Answers p.1 p.2

structure Inv (s : RestServer) (ts : List RestTask) : Prop where
  owned : s.Owned
  jobs : ∀ j, s.freelist.count j + holders RestTask.job ts j = if j < s.jobCount then 1 else 0
  free : ∀ j ∈ s.freelist, (s.jobs j).Clean
  aios : ∀ a, (s.finished.map Prod.fst).count a + holders (RestTask.aio s.jobs) ts a =
    if a < s.requests.length then 1 else 0
  ready : ∀ t ∈ ts, s.Ready t
  ctxs : ∀ c, (s.ctxs.read c).isSome = true →
    ∃ t ∈ ts, ∃ j, t.ctxJob = some j ∧ (s.jobs j).ctx = some c
  sent : ∀ p ∈ s.sent, s.Sends p.1 p.2
  replies : ∀ p ∈ s.replies, s.Sends p.1 p.2.1
  finished : ∀ p ∈ s.finished, s.Answers p.1 p.2

variable {ts rest : List RestTask}

namespace Inv

theorem perm {ts' : List RestTask} (h : s.Inv ts) (hperm : ts.Perm ts') : s.Inv ts' where
  owned := h.owned
  jobs := fun j => by rw [← holders_perm hperm, h.jobs]
  free := h.free
  aios := fun a => by rw [← holders_perm hperm, h.aios]
  ready := fun t ht => h.ready t (hperm.mem_iff.mpr ht)
  ctxs := by
    intro c hc
    obtain ⟨t, ht, hheld⟩ := h.ctxs c hc
    exact ⟨t, hperm.mem_iff.mp ht, hheld⟩
  sent := h.sent
  replies := h.replies
  finished := h.finished

theorem lt_jobCount (h : s.Inv ts) (ht : t ∈ ts) (hj : t.job = some j) : j < s.jobCount := by
  by_contra hle
  have hjobs := h.jobs j
  rw [if_neg hle] at hjobs
  exact hold_ne_of_holders_eq_zero (by omega) ht hj

theorem lt_requests (h : s.Inv ts) (ht : t ∈ ts) (ha : t.aio s.jobs = some a) :
    a < s.requests.length := by
  by_contra hle
  have haios := h.aios a
  rw [if_neg hle] at haios
  exact hold_ne_of_holders_eq_zero (by omega) ht ha

theorem notMem_finished (h : s.Inv (t :: rest)) (ha : t.aio s.jobs = some a) :
    a ∉ s.finished.map Prod.fst := by
  have haios := h.aios a
  rw [if_pos (h.lt_requests List.mem_cons_self ha), holders_cons, if_pos ha] at haios
  exact List.count_eq_zero.mp (by omega)

theorem job_ne (h : s.Inv (t :: rest)) (hu : u ∈ rest) (huj : u.job = some j) :
    t.job ≠ some j := by
  intro htj
  have hjobs := h.jobs j
  rw [if_pos (h.lt_jobCount List.mem_cons_self htj), holders_cons, if_pos htj] at hjobs
  exact hold_ne_of_holders_eq_zero (by omega) hu huj

theorem notMem_freelist (h : s.Inv (t :: rest)) (htj : t.job = some j) : j ∉ s.freelist := by
  have hjobs := h.jobs j
  rw [if_pos (h.lt_jobCount List.mem_cons_self htj), holders_cons, if_pos htj] at hjobs
  exact List.count_eq_zero.mp (by omega)

theorem holders_aio_rest (h : s.Inv (t :: rest)) (hadv : s.Advance t s' t') :
    holders (RestTask.aio s'.jobs) rest a = holders (RestTask.aio s.jobs) rest a := by
  refine List.countP_congr fun u hu => ?_
  rw [RestTask.aio_congr fun j huj => hadv.jobs j (h.job_ne hu huj)]

/-- A step of one task keeps the invariant. -/
theorem advance (h : s.Inv (t :: rest)) (hadv : s.Advance t s' t') :
    s'.Inv (t'.toList ++ rest) where
  owned := hadv.owned
  jobs := by
    intro j
    have hbefore := h.jobs j
    have hstep := hadv.holds j
    rw [holders_cons] at hbefore
    rw [holders_toList_append]
    omega
  free := by
    intro j hj
    rcases hadv.free j hj with hold | ⟨-, hclean⟩
    · rw [hadv.jobs j fun htj => h.notMem_freelist htj hold]
      exact h.free j hold
    · exact hclean
  aios := by
    intro a
    have hbefore := h.aios a
    have hstep := hadv.aios a
    rw [holders_cons] at hbefore
    rw [holders_toList_append, h.holders_aio_rest hadv, hadv.requests]
    omega
  ready := by
    intro u hu
    rcases List.mem_append.mp hu with hnew | hrest
    · exact hadv.ready u (Option.mem_toList.mp hnew)
    · exact hadv.history.ready (fun j huj => hadv.jobs j (h.job_ne hrest huj))
        (fun j m huj => hadv.msgs j m (h.job_ne hrest huj))
        (h.ready u (List.mem_cons_of_mem t hrest))
  ctxs := by
    intro c hc
    rcases hadv.ctxs c hc with ⟨j, hj, hctx⟩ | ⟨hlive, hnot⟩
    · obtain ⟨u, hu, huj⟩ := Option.bind_eq_some_iff.mp hj
      exact ⟨u, List.mem_append_left _ (Option.mem_toList.mpr hu), j, huj, hctx⟩
    · obtain ⟨u, hu, j, huj, hctx⟩ := h.ctxs c hlive
      rcases List.mem_cons.mp hu with rfl | hrest
      · exact absurd hctx (hnot j huj)
      · refine ⟨u, List.mem_append_right _ hrest, j, huj, ?_⟩
        rw [hadv.jobs j (h.job_ne hrest (RestTask.job_of_ctxJob huj)), hctx]
  sent := hadv.sent
  replies := by
    intro p hp
    rw [hadv.replies] at hp
    exact hadv.history.sends (h.replies p hp)
  finished := by
    intro p hp
    rcases hadv.finished p hp with hold | hnew
    · exact hadv.history.answers (h.finished p hold)
    · exact hnew

end Inv

section Steps

variable {job : RestJob} {ress : OwnedHeap HttpRes} {msgs : OwnedHeap HttpMsg}
  {ctxs : OwnedHeap Unit} {opened : List ℕ} {sent : List (ℕ × HttpMsg)}
  {finished : List (ℕ × HttpOutcome)}

def withJob (s : RestServer) (j : ℕ) (job : RestJob) (ress : OwnedHeap HttpRes)
    (msgs : OwnedHeap HttpMsg) (ctxs : OwnedHeap Unit) (opened : List ℕ)
    (sent : List (ℕ × HttpMsg)) (finished : List (ℕ × HttpOutcome)) : RestServer :=
  { s with
    jobs := Function.update s.jobs j job, ress := ress, msgs := msgs, ctxs := ctxs
    opened := opened, sent := sent, finished := finished }

theorem withJob_jobs_self :
    (s.withJob j job ress msgs ctxs opened sent finished).jobs j = job := Function.update_self ..

theorem withJob_jobs_of_ne {i : ℕ} (hi : i ≠ j) :
    (s.withJob j job ress msgs ctxs opened sent finished).jobs i = s.jobs i :=
  Function.update_of_ne hi ..

theorem Owned.withJob (h : s.Owned) (hj : j < s.jobCount)
    (hress : s.ress.Moved ress (s.jobs j).httpRes job.httpRes)
    (hres : ∀ r ∈ job.httpRes, ress.read r = some .new)
    (hmsgs : s.msgs.Moved msgs (s.jobs j).msg job.msg)
    (hmsg : ∀ m ∈ job.msg, (msgs.read m).isSome = true) (hopened : opened.length = ctxs.size) :
    (s.withJob j job ress msgs ctxs opened sent finished).Owned where
  ress := by
    have hproj : (fun i => (Function.update s.jobs j job i).httpRes) =
        Function.update (fun i => (s.jobs i).httpRes) j job.httpRes :=
      Function.comp_update RestJob.httpRes s.jobs j job
    rw [RestServer.withJob, hproj]
    exact h.ress.moved hress (fun r hr => Option.isSome_of_eq_some (hres r hr))
  msgs := by
    have hproj : (fun i => (Function.update s.jobs j job i).msg) =
        Function.update (fun i => (s.jobs i).msg) j job.msg :=
      Function.comp_update RestJob.msg s.jobs j job
    rw [RestServer.withJob, hproj]
    exact h.msgs.moved hmsgs hmsg
  new := by
    intro r res hread
    by_cases hr : job.httpRes = some r
    · exact Option.some.inj (hread.symm.trans (hres r hr))
    by_cases hold : s.ress.size ≤ r ∨ (s.jobs j).httpRes = some r
    · have hgone := hress.freed r hold hr
      exact absurd (hread.symm.trans hgone) (Option.some_ne_none res)
    · obtain ⟨hlt, hne⟩ := not_or.mp hold
      exact h.new r res ((hress.frame r (Nat.lt_of_not_le hlt) hne).symm.trans hread)
  opened := hopened
  fresh := by
    intro i hi
    have hne : i ≠ j := by
      rintro rfl
      exact Nat.not_le.mpr hj hi
    exact (withJob_jobs_of_ne hne).trans (h.fresh i hi)

theorem advance_withJob (h : s.Inv (t :: rest)) (htj : t.job = some j) (huj : u.job = some j)
    (hs : s' = s.withJob j job ress msgs ctxs opened sent finished)
    (hress : s.ress.Moved ress (s.jobs j).httpRes job.httpRes)
    (hres : ∀ r ∈ job.httpRes, ress.read r = some .new)
    (hmsgs : s.msgs.Moved msgs (s.jobs j).msg job.msg)
    (hmsg : ∀ m ∈ job.msg, (msgs.read m).isSome = true) (hlength : opened.length = ctxs.size)
    (hopened : s.opened <+: opened)
    (haios : ∀ a, (finished.map Prod.fst).count a +
        (if u.aio (Function.update s.jobs j job) = some a then 1 else 0) =
      (s.finished.map Prod.fst).count a + if t.aio s.jobs = some a then 1 else 0)
    (hready : s'.Ready u)
    (hctxs : ∀ c, (ctxs.read c).isSome = true → (u.ctxJob = some j ∧ job.ctx = some c) ∨
      (s.ctxs.read c).isSome = true ∧ (t.ctxJob = some j → (s.jobs j).ctx ≠ some c))
    (hsent : ∀ p ∈ sent, s'.Sends p.1 p.2)
    (hfinished : ∀ p ∈ finished, p ∈ s.finished ∨ s'.Answers p.1 p.2) :
    s.Advance t s' (some u) := by
  subst hs
  have hne (i : ℕ) (hi : t.job ≠ some i) : i ≠ j := by
    rintro rfl
    exact hi htj
  exact {
    owned := h.owned.withJob (h.lt_jobCount List.mem_cons_self htj) hress hres hmsgs hmsg hlength
    history := ⟨List.prefix_rfl, hopened, fun _ hx => hx⟩
    jobs := by
      intro i hi
      exact withJob_jobs_of_ne (hne i hi)
    msgs := by
      intro i m hi hm
      exact h.owned.msgs.read_of_ne hmsgs (hne i hi) hm
    holds := by
      intro i
      rw [Option.bind_some, huj, htj]
      rfl
    free := fun i hi => Or.inl hi
    aios := haios
    requests := rfl
    ready := by
      intro v hv
      obtain rfl := Option.some.inj hv
      exact hready
    ctxs := by
      intro c hc
      rcases hctxs c hc with ⟨hu, hjob⟩ | ⟨hlive, hnot⟩
      · refine Or.inl ⟨j, hu, ?_⟩
        rw [withJob_jobs_self, hjob]
      · refine Or.inr ⟨hlive, fun i hi => ?_⟩
        obtain rfl := Option.some.inj ((RestTask.job_of_ctxJob hi).symm.trans htj)
        exact hnot hi
    sent := hsent
    replies := rfl
    finished := hfinished }

/-- A step that moves a job between the free list and the tasks or finishes a request, and changes
neither a job nor a context. -/
theorem advance_moveJob {freelist : List ℕ} {jobCount : ℕ} (h : s.Inv (t :: rest))
    (hcount : s.jobCount ≤ jobCount)
    (hholds : ∀ j, freelist.count j + (if t'.bind RestTask.job = some j then 1 else 0) +
        (if j < s.jobCount then 1 else 0) =
      s.freelist.count j + (if t.job = some j then 1 else 0) + if j < jobCount then 1 else 0)
    (hfree : ∀ j ∈ freelist, j ∈ s.freelist ∨ t.job = some j ∧ (s.jobs j).Clean)
    (haios : ∀ a, (finished.map Prod.fst).count a +
        (if t'.bind (RestTask.aio s.jobs) = some a then 1 else 0) =
      (s.finished.map Prod.fst).count a + if t.aio s.jobs = some a then 1 else 0)
    (hready : ∀ u ∈ t', { s with
      freelist := freelist, jobCount := jobCount, finished := finished : RestServer }.Ready u)
    (hctx : t.ctxJob = none)
    (hfinished : ∀ p ∈ finished, p ∈ s.finished ∨ s.Answers p.1 p.2) :
    s.Advance t { s with freelist := freelist, jobCount := jobCount, finished := finished } t' where
  owned := ⟨h.owned.ress, h.owned.msgs, h.owned.new, h.owned.opened,
    fun i hi => h.owned.fresh i (Nat.le_trans hcount hi)⟩
  history := ⟨List.prefix_rfl, List.prefix_rfl, fun _ hx => hx⟩
  jobs := fun _ _ => rfl
  msgs := fun _ _ _ _ => rfl
  holds := hholds
  free := hfree
  aios := haios
  requests := rfl
  ready := hready
  ctxs := by
    intro c hc
    refine Or.inr ⟨hc, fun i hi => ?_⟩
    rw [hctx] at hi
    cases hi
  sent := h.sent
  replies := rfl
  finished := hfinished

theorem ctxs_kept (hu : t.ctxJob = some j → u.ctxJob = some j) (hctx : job.ctx = (s.jobs j).ctx)
    (c : ℕ) (hc : (s.ctxs.read c).isSome = true) : (u.ctxJob = some j ∧ job.ctx = some c) ∨
      (s.ctxs.read c).isSome = true ∧ (t.ctxJob = some j → (s.jobs j).ctx ≠ some c) := by
  by_cases hheld : t.ctxJob = some j ∧ (s.jobs j).ctx = some c
  · exact Or.inl ⟨hu hheld.1, hctx.trans hheld.2⟩
  · exact Or.inr ⟨hc, fun ht hcc => hheld ⟨ht, hcc⟩⟩

theorem aios_kept {jobs' : ℕ → RestJob} (haio : u.aio jobs' = t.aio s.jobs) (b : ℕ) :
    (s.finished.map Prod.fst).count b + (if u.aio jobs' = some b then 1 else 0) =
      (s.finished.map Prod.fst).count b + if t.aio s.jobs = some b then 1 else 0 := by
  rw [haio]

theorem withJob_self :
    s.withJob j (s.jobs j) s.ress s.msgs s.ctxs s.opened s.sent s.finished = s := by
  rw [withJob, Function.update_eq_self]

theorem advance_stay (h : s.Inv (t :: rest)) (htj : t.job = some j) (huj : u.job = some j)
    (haio : u.aio s.jobs = t.aio s.jobs) (hready : s.Ready u)
    (hctx : t.ctxJob = some j → u.ctxJob = some j) : s.Advance t s (some u) := by
  refine advance_withJob h htj huj withJob_self.symm (.refl ..) (fun r => h.owned.read_res)
    (.refl ..) (fun m => h.owned.read_msg) h.owned.opened List.prefix_rfl (aios_kept ?_) hready
    (ctxs_kept hctx rfl) h.sent (fun p hp => Or.inl hp)
  rw [Function.update_eq_self, haio]

theorem advance_giveUp (h : s.Inv (t :: rest)) (htj : t.job = some j) (haio : t.aio s.jobs = some a)
    (hclear : (s.jobs j).httpAio = none) (hrv : rv ≠ 0) :
    s.Advance t s (some (.recycle j (some (a, rv)))) := by
  refine advance_stay h htj rfl haio.symm ⟨hclear, fun p hp => ?_⟩ (fun _ => rfl)
  obtain rfl := Option.some.inj hp
  exact hrv

end Steps

end RestServer

end NanoMQ
