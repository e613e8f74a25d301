import NanoMQ.WebhookInvariant

/-!
# Stranded events

An event that is queued between the last look of the callback into the queue and its return stays
there: nobody looks again before the next event, which overtakes it. So do the events behind one for
which the callback could allocate no client. An event that comes to a free `aio` for which no client
can be allocated is forgotten. Without these three, every run is settled in all its states, and each
of them unsettles the run when the callback has returned.
-/

namespace NanoMQ

open GuardedRun

theorem HookWork.phase_enqueue (w : HookWork) (msg : ℕ) : (w.enqueue msg).phase = w.phase := by
  rw [HookWork.enqueue]
  split <;> rfl

/-- Nothing that waits is taken out by a new event. -/
theorem HookWork.items_enqueue (w : HookWork) (msg : ℕ) :
    w.lmq.items.Sublist (w.enqueue msg).lmq.items := by
  have hitems : (if w.lmq.full then w.lmq.grow else w.lmq).items = w.lmq.items := by
    split_ifs <;> rfl
  rw [HookWork.enqueue]
  split
  · next lmq hput =>
      have hnew := (BoundedFifo.items_of_put hput).1
      rw [hitems] at hnew
      show w.lmq.items.Sublist lmq.items
      rw [hnew]
      exact List.sublist_append_left _ _
  · exact List.Sublist.refl _

structure HookWork.Doomed (w : HookWork) : Prop where
  returning : w.phase = .returning
  waiting : w.lmq.items ≠ []

/-- Until the callback returns, nothing but the queue changes, and it only grows. -/
theorem HookWork.Doomed.step {w : HookWork} (h : w.Doomed) {e : HookEvent}
    (he : e ≠ .callbackReturns) : (hookStep w e).Doomed := by
  cases e with
  | arrive clientAlloc =>
      have hbusy : w.busy = true := by simp [HookWork.busy, h.returning]
      have hsend : hookStep w (.arrive clientAlloc) =
          { w with arrived := w.arrived + 1 }.enqueue w.arrived := by
        rw [hookStep, HookWork.sendMsg, hbusy]
        rfl
      rw [hsend]
      refine ⟨(HookWork.phase_enqueue _ _).trans h.returning, ?_⟩
      intro hnil
      have hsub := HookWork.items_enqueue { w with arrived := w.arrived + 1 } w.arrived
      rw [hnil] at hsub
      exact h.waiting (List.sublist_nil.mp hsub)
  | connected conn reqAlloc =>
      rw [hookStep, h.returning]
      exact h
  | written =>
      rw [hookStep, h.returning]
      exact h
  | aioError =>
      rw [hookStep, h.returning]
      exact h
  | drain clientAlloc =>
      rw [hookStep, h.returning]
      exact h
  | callbackReturns => exact absurd rfl he

theorem HookWork.Doomed.returns {w : HookWork} (h : w.Doomed) :
    ¬ (hookStep w .callbackReturns).Settled := by
  intro hsettled
  rw [hookStep, h.returning] at hsettled
  exact h.waiting (hsettled.drained rfl)

/-- A run that goes on until the callback has returned does not stay settled. -/
theorem HookWork.Doomed.run {w : HookWork} (h : w.Doomed) (events : List HookEvent) :
    ¬ EveryState hookRun HookWork.Settled w (events ++ [.callbackReturns]) := by
  induction events generalizing w with
  | nil =>
      rintro ⟨-, w', hw', hlast⟩
      obtain rfl := Option.some.inj hw'
      exact h.returns hlast
  | cons e events ih =>
      rintro ⟨-, w', hw', hrest⟩
      obtain rfl := Option.some.inj hw'
      by_cases he : e = .callbackReturns
      · subst he
        exact h.returns hrest.start
      · exact ih (h.step he) hrest

/-- A step that fails the condition loses an event or leaves events to a callback that returns. -/
theorem HookWork.Inv.unsettled {w : HookWork} (h : w.Inv) {e : HookEvent} (hw : ¬ Wakes w e) :
    (hookStep w e).Doomed ∨ ¬ (hookStep w e).Settled := by
  cases e with
  | arrive clientAlloc =>
      by_cases hreturning : w.phase = .returning
      · left
        obtain ⟨lmq, hput, hitems, -⟩ := h.put_room w.arrived
        have hbusy : w.busy = true := by simp [HookWork.busy, hreturning]
        have hnext : hookStep w (.arrive clientAlloc) =
            { w with arrived := w.arrived + 1, lmq := lmq } := by
          simp only [hookStep, HookWork.sendMsg, hbusy, if_true, HookWork.enqueue, hput]
        rw [hnext]
        refine ⟨hreturning, ?_⟩
        show lmq.items ≠ []
        rw [hitems]
        exact List.append_ne_nil_of_right_ne_nil _ (List.cons_ne_nil _ _)
      · right
        have hidle : w.phase = .idle ∧ clientAlloc = false := by
          simpa [Wakes, hreturning] using hw
        have hbusy : w.busy = false := by simp [HookWork.busy, hidle.1]
        have hnext : hookStep w (.arrive clientAlloc) = { w with arrived := w.arrived + 1 } := by
          rw [hookStep, HookWork.sendMsg, hbusy, hidle.2]
          rfl
        rw [hnext]
        intro hsettled
        -- one more event has arrived, and the places hold as many as before
        have hlen := (h.placed.symm.trans hsettled.placed).length_eq
        rw [List.length_range, List.length_range] at hlen
        exact absurd hlen (Nat.ne_of_lt (Nat.lt_succ_self _))
  | drain clientAlloc =>
      left
      have hcond : w.phase = .draining ∧ clientAlloc = false ∧ 1 < w.lmq.items.length := by
        simpa [Wakes] using hw
      obtain ⟨hphase, hfail, hmany⟩ := hcond
      rw [hookStep, hphase]
      show (w.drainQueue clientAlloc).Doomed
      rw [HookWork.drainQueue]
      cases hget : w.lmq.get with
      | none =>
          rw [BoundedFifo.get_eq_none_iff.mp hget, List.length_nil] at hmany
          omega
      | some p =>
          obtain ⟨msg, lmq⟩ := p
          have hitems := (BoundedFifo.items_of_get hget).1
          rw [hfail]
          refine ⟨rfl, ?_⟩
          show lmq.items ≠ []
          intro hnil
          rw [hitems, hnil, List.length_singleton] at hmany
          omega
  | connected conn reqAlloc => exact absurd trivial hw
  | written => exact absurd trivial hw
  | aioError => exact absurd trivial hw
  | callbackReturns => exact absurd trivial hw

theorem HookWork.Inv.run_iff {w : HookWork} (h : w.Inv) (events : List HookEvent) :
    EveryState hookRun HookWork.Settled w (events ++ [.callbackReturns]) ↔
      AllSteps hookRun Wakes w events := by
  induction events generalizing w with
  | nil =>
      refine iff_of_true ⟨h.settled, _, rfl, ?_⟩ trivial
      exact (h.step (e := .callbackReturns) trivial).settled
  | cons e events ih =>
      rw [AllSteps]
      by_cases hw : Wakes w e
      · have hrest := ih (h.step hw)
        constructor
        · rintro ⟨-, w', hw', hlater⟩
          obtain rfl := Option.some.inj hw'
          exact ⟨hw, hrest.mp hlater⟩
        · rintro ⟨-, hlater⟩
          exact ⟨h.settled, _, rfl, hrest.mpr hlater⟩
      · refine iff_of_false ?_ (fun hall => hw hall.1)
        rintro ⟨-, w', hw', hlater⟩
        obtain rfl := Option.some.inj hw'
        rcases h.unsettled hw with hdoomed | hunsettled
        · exact hdoomed.run events hlater
        · exact hunsettled hlater.start

/-- A run from the start, continued until a callback that is running has returned, is settled in all
its states exactly if all its steps meet the condition. -/
theorem webhook_settled_iff (events : List HookEvent) :
    EveryState hookRun HookWork.Settled HookWork.alloc (events ++ [.callbackReturns]) ↔
      AllSteps hookRun Wakes HookWork.alloc events :=
  HookWork.alloc_inv.run_iff events

/-- An event that arrives when the callback has found the queue empty stays there after its return,
and the event after it is handed over first. -/
theorem webhook_event_overtaken :
    ∃ stranded overtaken,
      [.arrive true, .connected true true, .written, .drain true, .arrive true,
        .callbackReturns].foldlM hookRun HookWork.alloc = some stranded ∧
      stranded.phase = .idle ∧ stranded.lmq.items = [1] ∧
      hookRun stranded (.arrive true) = some overtaken ∧ overtaken.handed = [0, 2] ∧
      overtaken.lmq.items = [1] ∧ ¬ stranded.Settled := by
  refine ⟨_, _, rfl, rfl, rfl, rfl, rfl, rfl, ?_⟩
  intro hsettled
  exact absurd (hsettled.drained rfl) (by decide)

end NanoMQ
