import NanoMQ.BridgeCache

/-!
# Safety of the cache of a bridge

Whatever the order of the calls, the callbacks and the changes of the connection: the flag `busy`
tells whether a resend is on its way, no message with a quality of service is lost or handed over
twice, and a full cache gives up its oldest message.
-/

namespace NanoMQ

open CachedFlow

namespace BridgeRun

section Runs

variable {s s' : BridgeRun} {cap : ℕ}

/-- A send on `resend_aio` is on its way exactly while the node is busy, and never two. -/
structure OneResend (s : BridgeRun) : Prop where
  busy_iff : s.busy = true ↔ 0 < s.resends
  le_one : s.resends ≤ 1

theorem OneResend.resend (hbusy : s.busy = false) (hnone : s.resends = 0) :
    OneResend s.resend := by
  unfold BridgeRun.resend
  cases s.ctxMsgs.get with
  | none => exact ⟨by simp [hbusy, hnone], by simp [hnone]⟩
  | some p => exact ⟨by simp, by simp [hnone]⟩

theorem OneResend.forward (h : OneResend s) (k : ℕ) (m : ForwardMsg) :
    OneResend (s.forward k m) := by
  have hkeep : ∀ {t : BridgeRun}, t.busy = s.busy → t.resends = s.resends → OneResend t :=
    fun hb hr => ⟨by rw [hb, hr]; exact h.busy_iff, hr ▸ h.le_one⟩
  unfold BridgeRun.forward BridgeRun.putMsg BridgeRun.makeRoom
  dsimp only
  split_ifs
  · exact hkeep rfl rfl
  · exact hkeep rfl rfl
  · split <;> split <;> exact hkeep rfl rfl
  · split <;> exact hkeep rfl rfl

theorem OneResend.step {e : Event} (h : OneResend s) (hstep : s.step e = some s') :
    OneResend s' := by
  cases e with
  | enter k | leave k | sendDone k =>
    obtain ⟨-, rfl⟩ := guarded hstep
    exact ⟨h.busy_iff, h.le_one⟩
  | connect | disconnect =>
    obtain rfl := Option.some.inj hstep
    exact ⟨h.busy_iff, h.le_one⟩
  | forward k m =>
    obtain ⟨-, rfl⟩ := guarded hstep
    exact h.forward k m
  | sendCb k =>
    obtain ⟨-, rfl⟩ := guarded hstep
    cases hbusy : s.busy with
    | true =>
      rw [bridgeSendCb_of_busy hbusy]
      exact ⟨h.busy_iff, h.le_one⟩
    | false =>
      have hnone : s.resends = 0 := by
        have hiff := h.busy_iff
        simp only [hbusy, Bool.false_eq_true, false_iff] at hiff
        omega
      rw [bridgeSendCb_of_idle hbusy]
      exact ⟨(OneResend.resend hbusy hnone).busy_iff, (OneResend.resend hbusy hnone).le_one⟩
  | resendCb =>
    obtain ⟨-, rfl⟩ := guarded hstep
    apply OneResend.resend rfl
    have hle := h.le_one
    change s.resends - 1 = 0
    omega

def dropQos0 : Policy BridgeItem := ⟨fun _ _ => True, fun item => item.msg.qos = 0⟩

structure CacheInv (cap : ℕ) (s : BridgeRun) : Prop where
  shape : Shape cap s
  accounted : Accounted cap s.flow
  dropped : ∀ item ∈ s.dropped, item.msg.qos = 0
  oneResend : OneResend s

theorem cacheInv_init (cap : ℕ) : CacheInv cap (init cap) where
  shape := ⟨rfl, fun _ hi => absurd hi List.not_mem_nil, List.Pairwise.nil⟩
  accounted := accounted_empty cap
  dropped := fun _ hi => absurd hi List.not_mem_nil
  oneResend := ⟨by simp [init], by simp [init]⟩

theorem CacheInv.step {e : Event} (hcap : 0 < cap) (h : CacheInv cap s)
    (hstep : s.step e = some s') : CacheInv cap s' := by
  obtain ⟨hshape, hflow⟩ := flow_step (P := dropQos0) h.shape hstep (fun _ _ _ _ => trivial)
    (fun _ hq => hq.resolve_right hcap.ne')
  refine ⟨hshape, ?_, ?_, h.oneResend.step hstep⟩
  · rcases hflow with heq | hflow
    · rw [heq]
      exact h.accounted
    · exact h.accounted.step hflow
  · rcases hflow with heq | hflow
    · have hdropped : s'.dropped = s.dropped := congrArg Flow.dropped heq
      rw [hdropped]
      exact h.dropped
    · exact hflow.drop_of_mem h.dropped

end Runs

/-- The cache does what it is for: a resend is on its way exactly while the node is busy, and never
two; a message with a quality of service is in exactly one place; and what was given up was the
oldest message of a full cache. -/
structure CacheSafe (s : BridgeRun) : Prop where
  busy_iff : s.busy = true ↔ 0 < s.resends
  resends_le : s.resends ≤ 1
  distinct : (s.built.map BridgeItem.id).Nodup
  one_place : ∀ item ∈ s.built, 0 < item.msg.qos →
    s.handed.count item + s.ctxMsgs.items.count item + (s.evicted.map Prod.fst).count item = 1
  oldest : ∀ e ∈ s.evicted, e.2.length + 1 = s.ctxMsgs.cap ∧ ∀ item ∈ e.2, e.1.id < item.id

theorem CacheInv.cacheSafe {cap : ℕ} {s : BridgeRun} (h : CacheInv cap s) : CacheSafe s where
  busy_iff := h.oneResend.busy_iff
  resends_le := h.oneResend.le_one
  distinct := by
    rw [List.nodup_iff_pairwise_ne, List.pairwise_map]
    exact h.shape.sorted.imp (fun hlt => Nat.ne_of_lt hlt)
  one_place item hitem hqos := h.accounted.count_eq_one hitem (fun hdrop => by
    rw [h.dropped item hdrop] at hqos
    exact Nat.lt_irrefl _ hqos)
  oldest e he := by
    obtain ⟨hsub, hlen⟩ := h.accounted.oldest e he
    rw [h.shape.cap_eq]
    exact ⟨hlen, (List.pairwise_cons.mp (h.shape.sorted.sublist hsub)).1⟩

end BridgeRun

open BridgeRun

/-- After every interleaving of the calls, the callbacks and the changes of the connection the cache
of a node is safe. -/
theorem bridge_cache_safe {cap : ℕ} (hcap : 0 < cap) {es : List BridgeRun.Event} {s : BridgeRun}
    (hrun : (BridgeRun.init cap).run es = some s) : CacheSafe s := by
  have hinv : CacheInv cap s := GuardedRun.run_invariant_of_step
    (fun _ _ _ hI hstep => hI.step hcap hstep) (cacheInv_init cap) hrun
  exact hinv.cacheSafe

def sampleForward (qos : Fin 4) : ForwardMsg := ⟨0, none, none, 0, false, qos, false, none⟩

def BridgeRun.call (k : ℕ) (ms : List ForwardMsg) : List BridgeRun.Event :=
  .enter k :: ms.map (.forward k) ++ [.leave k]

/-- With a cache for one message: two messages without a connection, and one with it, whose callback
hands over what is kept. -/
def smallRun : List BridgeRun.Event :=
  BridgeRun.call 0 [sampleForward 1, sampleForward 1] ++
    .connect :: BridgeRun.call 0 [sampleForward 1] ++ [.sendCb 0, .sendDone 0]

theorem bridge_cache_safe_small :
    ∃ s, (BridgeRun.init 1).run smallRun = some s ∧ CacheSafe s ∧
      s.evicted.map (fun e => e.1.id) = [0] ∧ s.handed.map BridgeItem.id = [2, 1] ∧
      s.busy = true := by
  have hrun : (BridgeRun.init 1).run smallRun = some _ := rfl
  exact ⟨_, hrun, bridge_cache_safe Nat.one_pos hrun, rfl, rfl, rfl⟩

end NanoMQ
