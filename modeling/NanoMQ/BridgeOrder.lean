import NanoMQ.CacheSafety

/-!
# The order of what a bridge sends

The messages of a work should reach a node in the order in which they were built. What is kept in
`ctx_msgs` is handed over in order, but the test for sending at once does not ask whether something
is kept. So the order is kept by the runs in which nothing of a work is sent at once while another
message of the work is kept back.
-/

namespace NanoMQ

open CachedFlow

namespace BridgeRun

def ofWork (k : ℕ) (item : BridgeItem) : Bool := item.work = k ∧ 0 < item.msg.qos

/-- Nothing of the work is sent at once while a message of the work is in the cache. -/
def KeepsBack (k : ℕ) (s : BridgeRun) : Event → Prop
  | .forward j m => j = k ∧ 0 < m.qos ∧ s.Direct k → ∀ item ∈ s.ctxMsgs.items, item.work ≠ k
  | _ => True

instance (k : ℕ) (s : BridgeRun) : ∀ e, Decidable (KeepsBack k s e)
  | .forward _ _ => inferInstanceAs (Decidable (_ → _))
  | .enter _ | .leave _ | .sendCb _ | .sendDone _ | .resendCb | .connect | .disconnect =>
      inferInstanceAs (Decidable True)

def inOrderPolicy (k : ℕ) : Policy BridgeItem := ⟨Waits (ofWork k), fun _ => True⟩

section Runs

variable {k cap : ℕ} {s s' : BridgeRun} {e : Event}

/-- Under the condition a message that is sent at once overtakes none of its work. -/
theorem waits_of_keepsBack (h : KeepsBack k s e) :
    ∀ j m, e = .forward j m → s.Direct j → Waits (ofWork k) s.flow (s.next j m) := by
  rintro j m rfl hdirect hof
  obtain ⟨hj, hqos⟩ : j = k ∧ 0 < m.qos := of_decide_eq_true hof
  subst hj
  apply List.filter_eq_nil_iff.mpr
  intro item hitem hkind
  exact h ⟨rfl, hqos, hdirect⟩ item hitem (of_decide_eq_true hkind).1

structure OrderInv (k cap : ℕ) (s : BridgeRun) : Prop where
  shape : Shape cap s
  order : InOrder (ofWork k) s.flow

theorem OrderInv.step (hkeep : KeepsBack k s e) (h : OrderInv k cap s)
    (hstep : s.step e = some s') : OrderInv k cap s' := by
  obtain ⟨hshape, hflow⟩ := flow_step (P := inOrderPolicy k) h.shape hstep
    (waits_of_keepsBack hkeep) (fun _ _ => trivial)
  refine ⟨hshape, ?_⟩
  rcases hflow with heq | hflow
  · rw [heq]
    exact h.order
  · exact h.order.step (fun _ _ hwaits => hwaits) hflow

end Runs

end BridgeRun

open BridgeRun GuardedRun

/-- In every run in which nothing of a work is sent at once while a message of the work is kept
back, the messages of the work with a quality of service are handed over in the order in which they
were built. -/
theorem bridge_order {cap k : ℕ} {es : List BridgeRun.Event} {s : BridgeRun}
    (hkeep : AllSteps step (KeepsBack k) (BridgeRun.init cap) es)
    (hrun : (BridgeRun.init cap).run es = some s) :
    (s.handed.filter (ofWork k)).Sublist s.built := by
  have hinv : OrderInv k cap s := run_invariant
    (fun _ _ _ hC hI hstep => hI.step hC hstep) hkeep
    ⟨(cacheInv_init cap).shape, inOrder_empty _⟩ hrun
  exact hinv.order.handed

/-- Two messages of a work without a connection, then one of another work that is sent, and the
callbacks. -/
def orderedRun : List BridgeRun.Event :=
  BridgeRun.call 0 [sampleForward 1, sampleForward 1] ++
    .connect :: BridgeRun.call 1 [sampleForward 0] ++ [.sendCb 1, .resendCb]

theorem bridge_order_kept :
    ∃ s, (BridgeRun.init 2).run orderedRun = some s ∧
      (s.handed.filter (ofWork 0)).Sublist s.built ∧ s.handed.map BridgeItem.id = [2, 0, 1] := by
  have hrun : (BridgeRun.init 2).run orderedRun = some _ := rfl
  exact ⟨_, hrun, bridge_order (by decide) hrun, rfl⟩

/-- A message that is built without a connection is overtaken by the next of the same work. -/
theorem bridge_order_broken :
    ∃ s, (BridgeRun.init 1).run (BridgeRun.call 0 [sampleForward 1] ++
        .connect :: BridgeRun.call 0 [sampleForward 1] ++ [.sendCb 0]) = some s ∧
      s.handed.map BridgeItem.id = [1, 0] ∧ ¬ (s.handed.filter (ofWork 0)).Sublist s.built := by
  refine ⟨_, rfl, rfl, ?_⟩
  decide

end NanoMQ
