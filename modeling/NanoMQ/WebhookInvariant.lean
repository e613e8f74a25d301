import NanoMQ.WebhookQueue

/-!
# What keeps events from being stranded

The condition on the steps of a work, and what every step under it keeps: nothing waits while the
`aio` is free or the callback returns, and what waits comes after what was handed over.
-/

namespace NanoMQ

/-- The condition under which nothing is stranded: no event arrives while the callback returns, a
client is allocated for every event that comes to a free `aio`, and in `drain` for one that has
others behind it. -/
def Wakes (w : HookWork) : HookEvent → Prop
  | .arrive clientAlloc => w.phase ≠ .returning ∧ (w.phase = .idle → clientAlloc = true)
  | .drain clientAlloc => w.phase = .draining → clientAlloc = true ∨ w.lmq.items.length ≤ 1
  | _ => True

instance decidableWakes (w : HookWork) : ∀ e, Decidable (Wakes w e)
  | .arrive clientAlloc => inferInstanceAs
      (Decidable (w.phase ≠ .returning ∧ (w.phase = .idle → clientAlloc = true)))
  | .drain clientAlloc => inferInstanceAs
      (Decidable (w.phase = .draining → clientAlloc = true ∨ w.lmq.items.length ≤ 1))
  | .connected _ _ | .written | .aioError | .callbackReturns => inferInstanceAs (Decidable True)

def hookRun (w : HookWork) (e : HookEvent) : Option HookWork := some (hookStep w e)

/-- What the steps under the condition keep: besides being settled, nothing waits while the callback
returns, what waits comes after what was handed over, and a full queue can be enlarged. -/
structure HookWork.Inv (w : HookWork) : Prop where
  idle : w.phase = .idle → w.lmq.items = []
  returning : w.phase = .returning → w.lmq.items = []
  ordered : (w.handed ++ w.lmq.items).Pairwise (· < ·)
  placed : (w.handed ++ (w.lmq.items ++ w.freed)).Perm (List.range w.arrived)
  room : 2 ≤ w.lmq.cap

theorem HookWork.alloc_inv : HookWork.alloc.Inv where
  idle := fun _ => rfl
  returning := fun _ => rfl
  ordered := List.Pairwise.nil
  placed := List.Perm.refl []
  room := by decide

namespace HookWork.Inv

variable {w : HookWork}

theorem settled (h : w.Inv) : w.Settled :=
  ⟨h.idle, (List.pairwise_append.mp h.ordered).1, h.placed⟩

theorem lt_arrived (h : w.Inv) {x : ℕ} (hx : x ∈ w.handed ++ w.lmq.items) : x < w.arrived := by
  apply List.mem_range.mp
  apply h.placed.subset
  rw [← List.append_assoc]
  exact List.mem_append_left _ hx

theorem ordered_next (h : w.Inv) : ((w.handed ++ w.lmq.items) ++ [w.arrived]).Pairwise (· < ·) := by
  apply List.pairwise_append.mpr
  refine ⟨h.ordered, List.pairwise_singleton _ _, ?_⟩
  intro x hx y hy
  rw [List.mem_singleton.mp hy]
  exact h.lt_arrived hx

/-- A step that only moves the `aio` to a phase in which something is going on. -/
theorem phase (h : w.Inv) {p : HttpPhase} (hidle : p ≠ .idle) (hreturning : p ≠ .returning) :
    { w with phase := p }.Inv :=
  ⟨fun hp => absurd hp hidle, fun hp => absurd hp hreturning, h.ordered, h.placed, h.room⟩

theorem put_room (h : w.Inv) (x : ℕ) :
    ∃ lmq, (if w.lmq.full then w.lmq.grow else w.lmq).put x = some lmq ∧
      lmq.items = w.lmq.items ++ [x] ∧ 2 ≤ lmq.cap := by
  have hroom := h.room
  have hle := w.lmq.le_cap
  have hitems : (if w.lmq.full then w.lmq.grow else w.lmq).items = w.lmq.items := by
    split_ifs <;> rfl
  have hcap : w.lmq.items.length < (if w.lmq.full then w.lmq.grow else w.lmq).cap ∧
      2 ≤ (if w.lmq.full then w.lmq.grow else w.lmq).cap := by
    split_ifs with hfull
    · simp only [BoundedFifo.grow]
      omega
    · have hne : w.lmq.items.length ≠ w.lmq.cap := by simpa [BoundedFifo.full] using hfull
      omega
  cases hput : (if w.lmq.full then w.lmq.grow else w.lmq).put x with
  | none =>
      have hfull : _ = _ := of_decide_eq_true (BoundedFifo.put_eq_none_iff.mp hput)
      rw [hitems] at hfull
      omega
  | some lmq =>
      obtain ⟨hnew, hcapNew, -⟩ := BoundedFifo.items_of_put hput
      rw [hitems] at hnew
      exact ⟨lmq, rfl, hnew, hcapNew ▸ hcap.2⟩

theorem enqueue (h : w.Inv) (hidle : w.phase ≠ .idle) (hreturning : w.phase ≠ .returning) :
    ({ w with arrived := w.arrived + 1 }.enqueue w.arrived).Inv := by
  obtain ⟨lmq, hput, hitems, hroom⟩ := h.put_room w.arrived
  have hnext : { w with arrived := w.arrived + 1 }.enqueue w.arrived =
      { w with arrived := w.arrived + 1, lmq := lmq } := by
    simp only [HookWork.enqueue, hput]
  rw [hnext]
  refine ⟨fun hp => absurd hp hidle, fun hp => absurd hp hreturning, ?_, ?_, hroom⟩
  · show (w.handed ++ lmq.items).Pairwise (· < ·)
    rw [hitems, ← List.append_assoc]
    exact h.ordered_next
  · show (w.handed ++ (lmq.items ++ w.freed)).Perm (List.range (w.arrived + 1))
    have hcount := fun a => h.placed.count_eq a
    rw [hitems, List.range_succ]
    apply List.perm_iff_count.mpr
    intro a
    have ha := hcount a
    simp only [List.count_append] at ha ⊢
    omega

theorem sendMsg (h : w.Inv) {clientAlloc : Bool} (hw : Wakes w (.arrive clientAlloc)) :
    (w.sendMsg clientAlloc).Inv := by
  by_cases hidle : w.phase = .idle
  · have hbusy : w.busy = false := by simp [HookWork.busy, hidle]
    have hqueue := h.idle hidle
    rw [HookWork.sendMsg, hbusy, hw.2 hidle]
    refine ⟨nofun, nofun, ?_, ?_, h.room⟩
    · have hordered := h.ordered_next
      show ((w.handed ++ [w.arrived]) ++ w.lmq.items).Pairwise (· < ·)
      rw [hqueue, List.append_nil] at hordered ⊢
      exact hordered
    · show ((w.handed ++ [w.arrived]) ++ (w.lmq.items ++ w.freed)).Perm (List.range (w.arrived + 1))
      rw [List.range_succ]
      apply List.perm_iff_count.mpr
      intro a
      have ha := h.placed.count_eq a
      simp only [List.count_append] at ha ⊢
      omega
  · have hbusy : w.busy = true := by simp [HookWork.busy, hidle]
    rw [HookWork.sendMsg, hbusy]
    exact h.enqueue hidle hw.1

theorem drainQueue (h : w.Inv) (hphase : w.phase = .draining) {clientAlloc : Bool}
    (hw : Wakes w (.drain clientAlloc)) : (w.drainQueue clientAlloc).Inv := by
  rw [HookWork.drainQueue]
  cases hget : w.lmq.get with
  | none =>
      have hempty := BoundedFifo.get_eq_none_iff.mp hget
      exact ⟨nofun, fun _ => hempty, h.ordered, h.placed, h.room⟩
  | some p =>
      obtain ⟨msg, lmq⟩ := p
      obtain ⟨hitems, hcap⟩ := BoundedFifo.items_of_get hget
      have hordered := h.ordered
      have hplaced := h.placed
      rw [hitems] at hordered hplaced
      have hroom : 2 ≤ lmq.cap := hcap ▸ h.room
      cases clientAlloc with
      | true =>
          refine ⟨nofun, nofun, ?_, ?_,
            hroom⟩
          · show ((w.handed ++ [msg]) ++ lmq.items).Pairwise (· < ·)
            rw [List.append_assoc]
            exact hordered
          · show ((w.handed ++ [msg]) ++ (lmq.items ++ w.freed)).Perm (List.range w.arrived)
            rw [List.append_assoc]
            exact hplaced
      | false =>
          have hlen : (msg :: lmq.items).length ≤ 1 := by
            have hor := hw hphase
            rw [hitems] at hor
            exact hor.resolve_left Bool.false_ne_true
          have hempty : lmq.items = [] := by
            apply List.eq_nil_of_length_eq_zero
            rw [List.length_cons] at hlen
            omega
          rw [hempty] at hordered hplaced
          refine ⟨nofun, fun _ => hempty, ?_, ?_, hroom⟩
          · show (w.handed ++ lmq.items).Pairwise (· < ·)
            rw [hempty, List.append_nil]
            exact (List.pairwise_append.mp hordered).1
          · show (w.handed ++ (lmq.items ++ (w.freed ++ [msg]))).Perm (List.range w.arrived)
            rw [hempty]
            apply List.perm_iff_count.mpr
            intro a
            have ha := hplaced.count_eq a
            simp only [List.count_append, List.count_nil] at ha ⊢
            omega

/-- A step under the condition keeps the invariant. -/
theorem step (h : w.Inv) {e : HookEvent} (hw : Wakes w e) : (hookStep w e).Inv := by
  cases e with
  | arrive clientAlloc => exact h.sendMsg hw
  | connected conn reqAlloc =>
      rw [hookStep]
      split
      · split_ifs
        · exact h.phase nofun nofun
        · exact h.phase nofun nofun
      · exact h
  | written =>
      rw [hookStep]
      split
      · exact h.phase nofun nofun
      · exact h
  | aioError =>
      rw [hookStep]
      split
      · exact h.phase nofun nofun
      · exact h.phase nofun nofun
      · exact h
  | drain clientAlloc =>
      rw [hookStep]
      split
      · next hphase => exact h.drainQueue hphase hw
      · exact h
  | callbackReturns =>
      rw [hookStep]
      split
      · next hphase =>
          exact ⟨fun _ => h.returning hphase, nofun, h.ordered,
            h.placed, h.room⟩
      · exact h

end HookWork.Inv

end NanoMQ
