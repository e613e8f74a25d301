import NanoMQ.GuardedRun
import NanoMQ.RestServerSteps
import Mathlib.Data.List.Nodup

/-!
# Runs of the REST server

Every point of `rest_handle`, `rest_job_cb`, `rest_http_fatal` and `rest_recycle_job` is an
`Advance`, with what its task finds in the job. So in every interleaving no step is at fault, each
HTTP request is finished once, with the reply to itself if with any, and when nothing is at work all
responses, messages and contexts are back. The texts that `put_http_msg` allocates and
`destory_http_msg` frees are not among them.
-/

namespace NanoMQ

open ByteBuffer TaskPool

namespace RestServer

variable {s s' : RestServer} {t u : RestTask} {t' : Option RestTask} {strerror : ℕ → Bytes}
  {j a rv : ℕ} {ts rest : List RestTask}

def Proceeds (s : RestServer) (strerror : ℕ → Bytes) (rv : ℕ) (t : RestTask) : Prop :=
  ∃ t' s', s.act strerror rv t = some (t', s') ∧ s.Advance t s' t'

theorem proceeds_handle (h : s.Inv (.handle a :: rest)) : s.Proceeds strerror rv (.handle a) := by
  cases hfree : s.freelist with
  | cons j freelist =>
    have hact : s.act strerror rv (.handle a) =
        some (some (.allocRes a j), { s with freelist := freelist }) := by
      rw [act, getJob, hfree]
    refine ⟨_, _, hact, advance_moveJob h (Nat.le_refl _) ?_ ?_ (fun _ => rfl) ?_ rfl
      (fun p hp => Or.inl hp)⟩
    · intro i
      rw [hfree, List.count_cons]
      simp only [Option.bind_some, RestTask.job, Option.some.injEq, reduceCtorEq, beq_iff_eq,
        ↓reduceIte, Nat.add_zero]
    · intro i hi
      rw [hfree]
      exact Or.inl (List.mem_cons_of_mem j hi)
    · intro v hv
      obtain rfl := Option.some.inj hv
      exact h.free j (hfree ▸ List.mem_cons_self)
  | nil =>
    by_cases hrv : rv = 0
    · have hact : s.act strerror rv (.handle a) = some (some (.allocRes a s.jobCount),
          { s.setJob s.jobCount .zero with jobCount := s.jobCount + 1 }) := by
        rw [act, getJob, hfree, hrv]
        rfl
      -- The memory of the new job is as a job beyond the count is.
      have hfresh : s.jobs s.jobCount = .zero := h.owned.fresh _ (Nat.le_refl _)
      rw [setJob, Function.update_eq_self_iff.mpr hfresh.symm] at hact
      refine ⟨_, _, hact, advance_moveJob h (Nat.le_succ _) ?_ (fun i hi => Or.inl hi)
        (fun _ => rfl) ?_ rfl (fun p hp => Or.inl hp)⟩
      · intro i
        simp only [Option.bind_some, RestTask.job, Option.some.injEq, reduceCtorEq, ↓reduceIte]
        split_ifs <;> omega
      · intro v hv
        obtain rfl := Option.some.inj hv
        rw [Ready]
        dsimp only
        rw [hfresh]
        exact ⟨rfl, rfl, rfl⟩
    · have hact : s.act strerror rv (.handle a) = some (some (.finish a enomem), s) := by
        rw [act, getJob, hfree]
        dsimp only
        rw [if_neg hrv]
      refine ⟨_, _, hact, advance_moveJob h (Nat.le_refl _) (fun _ => rfl)
        (fun i hi => Or.inl hi) (fun _ => rfl) ?_ rfl (fun p hp => Or.inl hp)⟩
      intro v hv
      obtain rfl := Option.some.inj hv
      exact Nat.succ_ne_zero 1

theorem proceeds_allocRes (h : s.Inv (.allocRes a j :: rest)) :
    s.Proceeds strerror rv (.allocRes a j) := by
  obtain ⟨haio, hres, hmsg⟩ := h.ready _ List.mem_cons_self
  by_cases hrv : rv = 0
  · have hact : s.act strerror rv (.allocRes a j) = some (some (.openCtx a j),
        s.withJob j { s.jobs j with httpRes := some s.ress.size } (s.ress.alloc .new) s.msgs s.ctxs
          s.opened s.sent s.finished) := if_pos hrv
    refine ⟨_, _, hact, advance_withJob h rfl rfl rfl ?_ ?_ (.refl ..) (fun m => h.owned.read_msg)
      h.owned.opened List.prefix_rfl (aios_kept rfl) ?_ (ctxs_kept ?_ rfl) h.sent
      (fun p hp => Or.inl hp)⟩
    · rw [hres]
      exact .adopt s.ress .new
    · intro r hr
      obtain rfl := Option.some.inj hr
      exact OwnedHeap.read_alloc_self ..
    · rw [Ready, withJob_jobs_self]
      exact ⟨haio, rfl, hmsg⟩
    · intro ht
      cases ht
  · have hact : s.act strerror rv (.allocRes a j) = some (some (.recycle j (some (a, rv))), s) :=
      if_neg hrv
    exact ⟨_, _, hact, advance_giveUp h rfl rfl haio hrv⟩

theorem proceeds_openCtx (h : s.Inv (.openCtx a j :: rest)) :
    s.Proceeds strerror rv (.openCtx a j) := by
  obtain ⟨haio, hres, hmsg⟩ := h.ready _ List.mem_cons_self
  by_cases hrv : rv = 0
  · have hact : s.act strerror rv (.openCtx a j) = some (some (.allocMsg a j),
        s.withJob j { s.jobs j with ctx := some s.ctxs.size } s.ress s.msgs (s.ctxs.alloc ())
          (s.opened ++ [a]) s.sent s.finished) := if_pos hrv
    have hopened : s.opened <+: s.opened ++ [a] := List.prefix_append ..
    refine ⟨_, _, hact, advance_withJob h rfl rfl rfl (.refl ..) (fun r => h.owned.read_res)
      (.refl ..) (fun m => h.owned.read_msg) ?_ hopened (aios_kept rfl) ?_ ?_ ?_
      (fun p hp => Or.inl hp)⟩
    · rw [List.length_append, h.owned.opened, OwnedHeap.size_alloc]
      rfl
    · rw [Ready, withJob_jobs_self]
      refine ⟨haio, hres, hmsg, s.ctxs.size, ?_, ?_⟩
      · rw [withJob_jobs_self]
      · rw [withJob, ← h.owned.opened]
        exact List.getElem?_concat_length
    · intro c hc
      by_cases hnew : c = s.ctxs.size
      · exact Or.inl ⟨rfl, congrArg some hnew.symm⟩
      · rw [OwnedHeap.read_alloc_of_ne _ hnew] at hc
        exact Or.inr ⟨hc, fun ht => by cases ht⟩
    · rintro p hp
      obtain ⟨b, req, hb, hreq, hmsg⟩ := h.sent p hp
      exact ⟨b, req, getElem?_of_prefix hopened hb, hreq, hmsg⟩
  · have hact : s.act strerror rv (.openCtx a j) = some (some (.recycle j (some (a, rv))), s) :=
      if_neg hrv
    exact ⟨_, _, hact, advance_giveUp h rfl rfl haio hrv⟩

theorem proceeds_allocMsg (h : s.Inv (.allocMsg a j :: rest)) :
    s.Proceeds strerror rv (.allocMsg a j) := by
  obtain ⟨haio, hres, hmsg, c, hctx, hopened⟩ := h.ready _ List.mem_cons_self
  have hlt : a < s.requests.length := h.lt_requests List.mem_cons_self rfl
  have hreq : s.requests[a]? = some (s.requests[a]) := List.getElem?_eq_getElem hlt
  by_cases hrv : rv = 0
  · have hact : s.act strerror rv (.allocMsg a j) = some (some (.outstanding j),
        s.withJob j { s.jobs j with
            httpAio := some a, msg := some s.msgs.size, state := .sendReq }
          s.ress (s.msgs.alloc s.requests[a].toMsg) s.ctxs s.opened
          (((s.jobs j).ctx.map (·, s.requests[a].toMsg)).toList ++ s.sent) s.finished) := by
      rw [act, hreq]
      exact if_pos hrv
    refine ⟨_, _, hact, advance_withJob h rfl rfl rfl (.refl ..) (fun r => h.owned.read_res) ?_ ?_
      h.owned.opened List.prefix_rfl (aios_kept ?_) ?_ (ctxs_kept (fun _ => rfl) rfl) ?_
      (fun p hp => Or.inl hp)⟩
    · rw [hmsg]
      exact .adopt s.msgs _
    · intro m hm
      obtain rfl := Option.some.inj hm
      exact Option.isSome_of_eq_some (OwnedHeap.read_alloc_self ..)
    · simp only [RestTask.aio, Function.update_self]
    · rw [Ready, withJob_jobs_self]
      refine ⟨hres, iff_of_true rfl rfl, a, rfl, c, ?_, hopened⟩
      rw [withJob_jobs_self]
      exact hctx
    · intro p hp
      rw [hctx] at hp
      rcases List.mem_cons.mp hp with rfl | hold
      · exact ⟨a, s.requests[a], hopened, hreq, rfl⟩
      · exact h.sent p hold
  · have hact : s.act strerror rv (.allocMsg a j) =
        some (some (.fatal j (ascii "nng_msg_alloc: " ++ strerror rv)),
          s.withJob j { s.jobs j with httpAio := some a } s.ress s.msgs s.ctxs s.opened s.sent
            s.finished) := by
      rw [act, hreq]
      exact if_neg hrv
    refine ⟨_, _, hact, advance_withJob h rfl rfl rfl (.refl ..) (fun r => h.owned.read_res)
      (.refl ..) (fun m => h.owned.read_msg) h.owned.opened List.prefix_rfl (aios_kept ?_) ?_
      (ctxs_kept (fun _ => rfl) rfl) h.sent (fun p hp => Or.inl hp)⟩
    · simp only [RestTask.aio, Function.update_self]
    · rw [Ready, withJob_jobs_self]
      exact ⟨hres, rfl⟩

theorem proceeds_outstanding (h : s.Inv (.outstanding j :: rest)) :
    s.Proceeds strerror rv (.outstanding j) := by
  have hready := h.ready _ List.mem_cons_self
  obtain ⟨hres, hmsg, a, haio, c, hctx, hopened⟩ := hready
  have hfatal (reason : Bytes) : s.Advance (.outstanding j) s (some (.fatal j reason)) :=
    advance_stay h rfl rfl rfl ⟨hres, Option.isSome_of_eq_some haio⟩ (fun _ => rfl)
  cases hstate : (s.jobs j).state with
  | sendReq =>
    by_cases hrv : rv = 0
    · obtain ⟨m, hm⟩ := Option.isSome_iff_exists.mp (hmsg.mpr hstate)
      obtain ⟨msgs, hfree, hmoved⟩ := h.owned.msgs.exists_freeOpt j
      have hact : s.act strerror rv (.outstanding j) = some (some (.outstanding j),
          s.withJob j { s.jobs j with msg := none, state := .recvRep } s.ress msgs s.ctxs s.opened
            s.sent s.finished) := by
        rw [hm, OwnedHeap.freeOpt] at hfree
        rw [act, hstate, hrv, hm]
        dsimp only [Option.bind_eq_bind, Option.bind_some]
        rw [hfree]
        rfl
      refine ⟨_, _, hact, advance_withJob h rfl rfl rfl (.refl ..) (fun r => h.owned.read_res)
        hmoved ?_ h.owned.opened List.prefix_rfl (aios_kept ?_) ?_ (ctxs_kept (fun _ => rfl) rfl)
        h.sent (fun p hp => Or.inl hp)⟩
      · intro m hm
        cases hm
      · simp only [RestTask.aio, Function.update_self]
      · rw [Ready, withJob_jobs_self]
        refine ⟨hres, ?_, a, haio, c, ?_, hopened⟩
        · exact iff_of_false Bool.false_ne_true (fun heq => by cases heq)
        · rw [withJob_jobs_self]
          exact hctx
    · have hact : s.act strerror rv (.outstanding j) =
          some (some (.fatal j (ascii "send REQ failed: " ++ strerror rv)), s) := by
        rw [act, hstate]
        exact if_pos hrv
      exact ⟨_, _, hact, hfatal _⟩
  | recvRep =>
    by_cases hrv : rv = 0
    · have hact : s.act strerror rv (.outstanding j) = some (some (.outstanding j), s) := by
        rw [act, hstate]
        exact if_neg (not_not.mpr hrv)
      exact ⟨_, _, hact,
        advance_stay h rfl rfl rfl (h.ready _ List.mem_cons_self) (fun _ => rfl)⟩
    · have hact : s.act strerror rv (.outstanding j) =
          some (some (.fatal j (ascii "recv reply failed: " ++ strerror rv)), s) := by
        rw [act, hstate]
        exact if_pos hrv
      exact ⟨_, _, hact, hfatal _⟩

theorem finishAio_eq (hnew : a ∉ s.finished.map Prod.fst) (o : HttpOutcome) :
    s.finishAio a o = some { s with finished := (a, o) :: s.finished } := if_neg hnew

/-- A task that answers its request with the response of its job, and then recycles the job. -/
theorem exists_respond (h : s.Inv (t :: rest)) (htj : t.job = some j)
    (ht : t.aio s.jobs = (s.jobs j).httpAio) (hres : (s.jobs j).httpRes.isSome = true)
    (haio : (s.jobs j).httpAio = some a) {f : HttpRes → HttpRes}
    (hanswer : s.Answers a (.response (f .new))) :
    ∃ s', s.respond j f = some s' ∧ s.Advance t s' (some (.recycle j none)) := by
  obtain ⟨r, hr⟩ := Option.isSome_iff_exists.mp hres
  obtain ⟨ress, hfree, hmoved⟩ := h.owned.ress.exists_freeOpt j
  have hrespond : s.respond j f = some (s.withJob j
      { s.jobs j with httpAio := none, httpRes := none } ress s.msgs s.ctxs s.opened s.sent
      ((a, .response (f .new)) :: s.finished)) := by
    rw [hr, OwnedHeap.freeOpt] at hfree
    rw [respond, haio, hr]
    dsimp only [Option.bind_eq_bind, Option.bind_some]
    rw [h.owned.read_res hr, hfree]
    dsimp only [Option.bind_some]
    rw [finishAio_eq (h.notMem_finished (ht.trans haio))]
    rfl
  refine ⟨_, hrespond, advance_withJob h htj rfl rfl hmoved ?_ (.refl ..)
    (fun m => h.owned.read_msg) h.owned.opened List.prefix_rfl ?_ ?_
    (ctxs_kept (fun _ => rfl) rfl) h.sent ?_⟩
  · intro r hr
    cases hr
  · intro b
    rw [ht, haio, List.map_cons, List.count_cons]
    simp only [RestTask.aio, Option.map_none, reduceCtorEq, ↓reduceIte, beq_iff_eq,
      Option.some.injEq, Nat.add_zero]
  · rw [Ready, withJob_jobs_self]
    refine ⟨rfl, fun p hp => ?_⟩
    cases hp
  · exact List.forall_mem_cons.mpr ⟨Or.inr hanswer, fun p hp => Or.inl hp⟩

theorem proceeds_copyData (h : s.Inv (.copyData j :: rest)) :
    s.Proceeds strerror rv (.copyData j) := by
  obtain ⟨hres, a, m, reply, haio, hm, hread, hserved⟩ := h.ready _ List.mem_cons_self
  by_cases hrv : rv = 0
  · obtain ⟨s', hrespond, hadv⟩ := exists_respond (f := (·.fill reply)) h rfl rfl hres haio
      (Or.inr ⟨reply, hserved, rfl⟩)
    have hact : s.act strerror rv (.copyData j) = some (some (.recycle j none), s') := by
      rw [act, hm]
      dsimp only [Option.bind_eq_bind, Option.bind_some]
      rw [hread, Option.bind_some, if_neg (not_not.mpr hrv), hrespond]
      rfl
    exact ⟨_, _, hact, hadv⟩
  · have hact : s.act strerror rv (.copyData j) =
        some (some (.fatal j (ascii "nng_http_res_copy_data: " ++ strerror rv)), s) := by
      rw [act, hm]
      dsimp only [Option.bind_eq_bind, Option.bind_some]
      rw [hread]
      exact if_pos hrv
    exact ⟨_, _, hact,
      advance_stay h rfl rfl rfl ⟨hres, Option.isSome_of_eq_some haio⟩ (fun _ => rfl)⟩

theorem proceeds_fatal {reason : Bytes} (h : s.Inv (.fatal j reason :: rest)) :
    s.Proceeds strerror rv (.fatal j reason) := by
  obtain ⟨hres, haio⟩ := h.ready _ List.mem_cons_self
  obtain ⟨a, ha⟩ := Option.isSome_iff_exists.mp haio
  obtain ⟨s', hrespond, hadv⟩ := exists_respond (f := (·.fatal reason)) h rfl rfl hres ha
    (Or.inl ⟨reason, rfl⟩)
  have hact : s.act strerror rv (.fatal j reason) = some (some (.recycle j none), s') := by
    rw [act, hrespond]
    rfl
  exact ⟨_, _, hact, hadv⟩

theorem proceeds_recycle {after : Option (ℕ × ℕ)} (h : s.Inv (.recycle j after :: rest)) :
    s.Proceeds strerror rv (.recycle j after) := by
  obtain ⟨haio, hafter⟩ := h.ready _ List.mem_cons_self
  obtain ⟨ress, hress, hmress⟩ := h.owned.ress.exists_freeOpt j
  obtain ⟨msgs, hmsgs, hmmsgs⟩ := h.owned.msgs.exists_freeOpt j
  have hact : s.act strerror rv (.recycle j after) = some (some (.giveBack j after),
      s.withJob j { s.jobs j with httpRes := none, msg := none } ress msgs
        ((s.ctxs.freeOpt (s.jobs j).ctx).getD s.ctxs) s.opened s.sent s.finished) := by
    rw [act, hress]
    dsimp only [Option.bind_eq_bind, Option.bind_some]
    rw [hmsgs]
    rfl
  refine ⟨_, _, hact, advance_withJob h rfl rfl rfl hmress ?_ hmmsgs ?_ ?_ List.prefix_rfl
    (aios_kept rfl) ?_ ?_ h.sent (fun p hp => Or.inl hp)⟩
  · intro r hr
    cases hr
  · intro m hm
    cases hm
  · rw [OwnedHeap.size_freeOpt_getD, h.owned.opened]
  · rw [Ready, withJob_jobs_self]
    exact ⟨⟨haio, rfl, rfl⟩, hafter⟩
  · intro c hc
    obtain ⟨hlive, hne⟩ := OwnedHeap.read_freeOpt_getD hc
    exact Or.inr ⟨hlive, fun _ => hne⟩

theorem proceeds_giveBack {after : Option (ℕ × ℕ)} (h : s.Inv (.giveBack j after :: rest)) :
    s.Proceeds strerror rv (.giveBack j after) := by
  obtain ⟨hclean, hafter⟩ := h.ready _ List.mem_cons_self
  refine ⟨_, _, rfl, advance_moveJob h (Nat.le_refl _) ?_ ?_ ?_ ?_ rfl
    (fun p hp => Or.inl hp)⟩
  · intro i
    have hnone : (after.map fun p => RestTask.finish p.1 p.2).bind RestTask.job = none := by
      cases after <;> rfl
    rw [hnone, List.count_cons]
    simp only [RestTask.job, reduceCtorEq, ↓reduceIte, beq_iff_eq, Option.some.injEq,
      Nat.add_zero]
  · intro i hi
    rcases List.mem_cons.mp hi with rfl | hold
    · exact Or.inr ⟨rfl, hclean⟩
    · exact Or.inl hold
  · intro b
    cases after <;> rfl
  · intro u hu
    obtain ⟨p, hp, rfl⟩ := Option.map_eq_some_iff.mp hu
    exact hafter p hp

theorem proceeds_finish {rv' : ℕ} (h : s.Inv (.finish a rv' :: rest)) :
    s.Proceeds strerror rv (.finish a rv') := by
  have hrv : rv' ≠ 0 := h.ready _ List.mem_cons_self
  have hact : s.act strerror rv (.finish a rv') =
      some (none, { s with finished := (a, .failed rv') :: s.finished }) := by
    rw [act, finishAio_eq (h.notMem_finished rfl)]
    rfl
  refine ⟨_, _, hact, advance_moveJob h (Nat.le_refl _) (fun _ => rfl) (fun i hi => Or.inl hi) ?_ ?_
    rfl ?_⟩
  · intro b
    rw [List.map_cons, List.count_cons]
    simp only [Option.bind_none, RestTask.aio, reduceCtorEq, ↓reduceIte, beq_iff_eq,
      Option.some.injEq, Nat.add_zero]
  · intro u hu
    cases hu
  · exact List.forall_mem_cons.mpr ⟨Or.inr hrv, fun p hp => Or.inl hp⟩

theorem proceeds (h : s.Inv (t :: rest)) : s.Proceeds strerror rv t := by
  cases t with
  | handle a => exact proceeds_handle h
  | allocRes a j => exact proceeds_allocRes h
  | openCtx a j => exact proceeds_openCtx h
  | allocMsg a j => exact proceeds_allocMsg h
  | outstanding j => exact proceeds_outstanding h
  | copyData j => exact proceeds_copyData h
  | fatal j reason => exact proceeds_fatal h
  | recycle j after => exact proceeds_recycle h
  | giveBack j after => exact proceeds_giveBack h
  | finish a rv => exact proceeds_finish h

theorem advance_deliver {c : ℕ} {msg reply : HttpMsg} (h : s.Inv (t :: rest))
    (hreply : (c, msg, reply) ∈ s.replies) (hdeliver : s.deliver c reply t = some (u, s')) :
    s.Advance t s' (some u) := by
  cases t with
  | outstanding j =>
    obtain ⟨hres, hmsg, a, haio, c', hctx', hopened⟩ := h.ready _ List.mem_cons_self
    rw [deliver] at hdeliver
    split_ifs at hdeliver with hif
    obtain ⟨hstate, hctx⟩ := hif
    obtain ⟨rfl, rfl⟩ := Prod.mk.inj (Option.some.inj hdeliver)
    obtain rfl := Option.some.inj (hctx'.symm.trans hctx)
    have hnone : (s.jobs j).msg = none := by
      rw [← Option.not_isSome_iff_eq_none, hmsg, hstate]
      exact fun heq => by cases heq
    -- What was sent through the context is the message of the request.
    obtain ⟨b, req, hb, hreq, rfl⟩ := h.replies _ hreply
    obtain rfl := Option.some.inj (hopened.symm.trans hb)
    change s.Advance _ (s.withJob j { s.jobs j with msg := some s.msgs.size } s.ress
      (s.msgs.alloc reply) s.ctxs s.opened s.sent s.finished) _
    refine advance_withJob h rfl rfl rfl (.refl ..) (fun r => h.owned.read_res) ?_ ?_ h.owned.opened
      List.prefix_rfl (aios_kept ?_) ?_ (ctxs_kept (fun _ => rfl) rfl) h.sent
      (fun p hp => Or.inl hp)
    · rw [hnone]
      exact .adopt s.msgs reply
    · intro m hm
      obtain rfl := Option.some.inj hm
      exact Option.isSome_of_eq_some (OwnedHeap.read_alloc_self ..)
    · simp only [RestTask.aio, Function.update_self]
    · rw [Ready, withJob_jobs_self]
      exact ⟨hres, a, _, reply, haio, rfl, OwnedHeap.read_alloc_self .., req, _, hreq, hopened,
        hreply⟩
  | _ => cases hdeliver

theorem Inv.arrive (h : s.Inv ts) (req : HttpReq) :
    { s with requests := s.requests ++ [req] : RestServer }.Inv
      (.handle s.requests.length :: ts) := by
  have hext : s.Extends { s with requests := s.requests ++ [req] } :=
    ⟨List.prefix_append .., List.prefix_rfl, fun _ hx => hx⟩
  exact {
    owned := ⟨h.owned.ress, h.owned.msgs, h.owned.new, h.owned.opened, h.owned.fresh⟩
    jobs := by
      intro j
      rw [holders_cons]
      exact h.jobs j
    free := h.free
    aios := by
      intro b
      have hbefore := h.aios b
      rw [holders_cons, List.length_append, List.length_singleton]
      simp only [RestTask.aio, Option.some.injEq]
      split_ifs at hbefore ⊢ <;> omega
    ready := by
      intro t ht
      rcases List.mem_cons.mp ht with rfl | hold
      · trivial
      · exact hext.ready (fun _ _ => rfl) (fun _ _ _ _ => rfl) (h.ready t hold)
    ctxs := by
      intro c hc
      obtain ⟨t, ht, hheld⟩ := h.ctxs c hc
      exact ⟨t, List.mem_cons_of_mem _ ht, hheld⟩
    sent := fun p hp => hext.sends (h.sent p hp)
    replies := fun p hp => hext.sends (h.replies p hp)
    finished := fun p hp => hext.answers (h.finished p hp) }

theorem Inv.works {works : List SrvState} {replies : List (ℕ × HttpMsg × HttpMsg)}
    (h : s.Inv ts) (hold : ∀ x ∈ s.replies, x ∈ replies)
    (hreplies : ∀ p ∈ replies, s.Sends p.1 p.2.1) :
    { s with works := works, replies := replies : RestServer }.Inv ts := by
  have hext : s.Extends { s with works := works, replies := replies } :=
    ⟨List.prefix_rfl, List.prefix_rfl, hold⟩
  exact {
    owned := ⟨h.owned.ress, h.owned.msgs, h.owned.new, h.owned.opened, h.owned.fresh⟩
    jobs := h.jobs
    free := h.free
    aios := h.aios
    ready := fun t ht => hext.ready (fun _ _ => rfl) (fun _ _ _ _ => rfl) (h.ready t ht)
    ctxs := h.ctxs
    sent := h.sent
    replies := hreplies
    finished := fun p hp => hext.answers (h.finished p hp) }

theorem Inv.inprocCb (h : s.Inv ts) (w k : ℕ) (reply : HttpMsg) :
    (s.inprocCb w k reply).Inv ts := by
  unfold RestServer.inprocCb
  split
  · exact h
  · exact h.works (fun _ hx => hx) h.replies
  · split
    · exact h
    · rename_i c msg hsent
      refine h.works (fun _ hx => List.mem_cons_of_mem _ hx) ?_
      intro p hp
      rcases List.mem_cons.mp hp with rfl | hold
      · exact h.sent _ (List.mem_of_getElem? hsent)
      · exact h.replies p hold
  · exact h.works (fun _ hx => hx) h.replies

theorem inv_start (parallel : ℕ) : (start parallel).Inv [] where
  owned := by
    refine ⟨.empty, .empty, fun r res hr => ?_, rfl, fun _ _ => rfl⟩
    cases hr
  jobs := fun _ => rfl
  free := fun j hj => by cases hj
  aios := fun _ => rfl
  ready := fun t ht => by cases ht
  ctxs := fun c hc => by cases hc
  sent := fun p hp => by cases hp
  replies := fun p hp => by cases hp
  finished := fun p hp => by cases hp

end RestServer

theorem restStep_inv (strerror : ℕ → Bytes) (sys : RestSystem) (e : RestEvent)
    (h : sys.server.Inv sys.tasks) :
    ∃ sys', restStep strerror sys e = some sys' ∧ sys'.server.Inv sys'.tasks := by
  obtain ⟨s, ts⟩ := sys
  cases e with
  | arrive req => exact ⟨_, rfl, h.arrive req⟩
  | run i rv =>
    cases hi : ts[i]? with
    | none =>
      refine ⟨⟨s, ts⟩, ?_, h⟩
      rw [restStep, hi]
    | some t =>
      have hpicked := h.perm (taken_perm hi).symm
      obtain ⟨t', s', hact, hadv⟩ := RestServer.proceeds hpicked
      refine ⟨⟨s', t'.toList ++ ts.eraseIdx i⟩, ?_, hpicked.advance hadv⟩
      rw [restStep, hi]
      dsimp only [Option.bind_eq_bind]
      rw [hact]
      rfl
  | reply i k =>
    rw [restStep]
    split
    · rename_i t c msg reply hi hk
      split
      · exact ⟨_, rfl, h⟩
      · rename_i u s' hdeliver
        have hpicked := h.perm (taken_perm hi).symm
        exact ⟨_, rfl,
          hpicked.advance (RestServer.advance_deliver hpicked (List.mem_of_getElem? hk) hdeliver)⟩
    · exact ⟨_, rfl, h⟩
  | work w k reply => exact ⟨_, rfl, h.inprocCb w k reply⟩

/-- Every job is on the free list or with one task. No request was finished twice, and one that was
not finished is with one task. When no task is left, all requests were finished, and all responses,
messages and contexts were released. -/
structure RestSystem.Orderly (sys : RestSystem) : Prop where
  jobs : ∀ j < sys.server.jobCount,
    sys.server.freelist.count j + holders RestTask.job sys.tasks j = 1
  once : (sys.server.finished.map Prod.fst).Nodup
  pending : ∀ a < sys.server.requests.length, a ∉ sys.server.finished.map Prod.fst →
    holders (RestTask.aio sys.server.jobs) sys.tasks a = 1
  idle : sys.tasks = [] →
    (∀ a < sys.server.requests.length, a ∈ sys.server.finished.map Prod.fst) ∧
      (∀ r < sys.server.ress.size, sys.server.ress.Freed r) ∧
      (∀ m < sys.server.msgs.size, sys.server.msgs.Freed m) ∧
      ∀ c < sys.server.ctxs.size, sys.server.ctxs.Freed c

namespace RestServer

variable {s : RestServer} {ts : List RestTask}

theorem Inv.clean_of_idle (h : s.Inv []) (j : ℕ) : (s.jobs j).Clean := by
  rcases Nat.lt_or_ge j s.jobCount with hlt | hge
  · have hjobs := h.jobs j
    rw [if_pos hlt, holders_nil] at hjobs
    exact h.free j (List.one_le_count_iff.mp (by omega))
  · rw [h.owned.fresh j hge]
    exact ⟨rfl, rfl, rfl⟩

theorem Inv.orderly (h : s.Inv ts) : (⟨s, ts⟩ : RestSystem).Orderly where
  jobs := by
    intro j hj
    rw [h.jobs j, if_pos hj]
  once := by
    refine List.nodup_iff_count_le_one.mpr fun a => ?_
    have haios := h.aios a
    dsimp only
    split_ifs at haios <;> omega
  pending := by
    intro a ha hnot
    have haios := h.aios a
    rw [if_pos ha, List.count_eq_zero.mpr hnot, Nat.zero_add] at haios
    exact haios
  idle := by
    intro hnil
    obtain rfl : ts = [] := hnil
    refine ⟨fun a ha => ?_, fun r hr => ?_, fun m hm => ?_, fun c hc => ?_⟩
    · have haios := h.aios a
      rw [if_pos ha, holders_nil, Nat.add_zero] at haios
      exact List.one_le_count_iff.mp (Nat.le_of_eq haios.symm)
    · exact h.owned.ress.freed (fun j => (h.clean_of_idle j).2.1) hr
    · exact h.owned.msgs.freed (fun j => (h.clean_of_idle j).2.2) hm
    · refine OwnedHeap.freed_iff.mpr ⟨hc, Option.not_isSome_iff_eq_none.mp fun hlive => ?_⟩
      obtain ⟨t, ht, -⟩ := h.ctxs c hlive
      cases ht

end RestServer

/-- In every interleaving of requests, tasks and works no step is at fault and the server is in
order. -/
theorem rest_server_orderly (strerror : ℕ → Bytes) (parallel : ℕ) (events : List RestEvent) :
    GuardedRun.EveryState (restStep strerror) RestSystem.Orderly ⟨.start parallel, []⟩ events :=
  GuardedRun.everyState_of_step (restStep_inv strerror) (fun _ h => h.orderly)
    (RestServer.inv_start parallel)

/-- In every interleaving a request is finished with an error, with the status 500, or with what
`process_request` made of this very request. -/
theorem rest_server_answers (strerror : ℕ → Bytes) (parallel : ℕ) (events : List RestEvent) :
    GuardedRun.EveryState (restStep strerror)
      (fun sys => ∀ p ∈ sys.server.finished, sys.server.Answers p.1 p.2)
      ⟨.start parallel, []⟩ events :=
  GuardedRun.everyState_of_step (restStep_inv strerror) (fun _ h => h.finished)
    (RestServer.inv_start parallel)

end NanoMQ
