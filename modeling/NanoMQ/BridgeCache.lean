import NanoMQ.BoundedFifo
import NanoMQ.CachedFlow
import NanoMQ.Forward
import NanoMQ.GuardedRun
import Mathlib.Logic.Function.Basic

/-!
# The cache of a bridge

What `bridge_pub_handler` builds for a node is handed to the `aio` of its work or, while that is
busy or the node not connected, kept in `ctx_msgs`. The callbacks of the sends hand over what is
kept, one message at a time, through `resend_aio`. The mutex of the node is held through a call of
`bridge_pub_handler` and through a callback, while the connection and the state of an `aio` change
at any time. The lists of what became of the messages are not part of the code.
-/

namespace NanoMQ

open CachedFlow

structure BridgeItem where
  id : ℕ
  work : ℕ
  msg : ForwardMsg
  deriving DecidableEq, Repr

/-- An `aio` is busy from the submission to the end of its callback. -/
inductive AioState
  | idle | sending | finishing
  deriving DecidableEq, Repr

structure BridgeRun where
  connected : Bool
  busy : Bool
  ctxMsgs : BoundedFifo BridgeItem
  bridgeAio : ℕ → AioState
  /-- The sends on `resend_aio` whose callback has not run yet. -/
  resends : ℕ
  /-- The work that holds the mutex in `bridge_pub_handler`. -/
  owner : Option ℕ
  built : List BridgeItem
  handed : List BridgeItem
  evicted : List (BridgeItem × List BridgeItem)
  /-- What was freed at once. -/
  dropped : List BridgeItem

namespace BridgeRun

def init (cap : ℕ) : BridgeRun where
  connected := false
  busy := false
  ctxMsgs := BoundedFifo.empty cap
  bridgeAio := fun _ => .idle
  resends := 0
  owner := none
  built := []
  handed := []
  evicted := []
  dropped := []

section Steps

variable (s : BridgeRun)

def makeRoom : BridgeRun :=
  if s.ctxMsgs.full then
    match s.ctxMsgs.get with
    | some (old, q) => { s with ctxMsgs := q, evicted := s.evicted ++ [(old, q.items)] }
    | none => s
  else s

def putMsg (item : BridgeItem) : BridgeRun :=
  match s.ctxMsgs.put item with
  | some q => { s with ctxMsgs := q }
  | none => { s with dropped := s.dropped ++ [item] }

def next (k : ℕ) (m : ForwardMsg) : BridgeItem := ⟨s.built.length, k, m⟩

/-- The test that `bridge_pub_handler` sends a message of the work at once. -/
def Direct (k : ℕ) : Prop := s.bridgeAio k = .idle ∧ s.connected = true

instance (k : ℕ) : Decidable (s.Direct k) := inferInstanceAs (Decidable (_ ∧ _))

/-- The end of the loop body of `bridge_pub_handler`, for a message that was just built. -/
def forward (k : ℕ) (m : ForwardMsg) : BridgeRun :=
  let item := s.next k m
  let s' := { s with built := s.built ++ [item] }
  if s.Direct k then
    { s' with
      bridgeAio := Function.update s.bridgeAio k .sending, handed := s.handed ++ [item] }
  else if m.qos = 0 then { s' with dropped := s.dropped ++ [item] }
  else s'.makeRoom.putMsg item

def resend : BridgeRun :=
  match s.ctxMsgs.get with
  | some (item, q) =>
      { s with ctxMsgs := q, handed := s.handed ++ [item], resends := s.resends + 1, busy := true }
  | none => s

def bridgeSendCb : BridgeRun := if s.busy then s else s.resend

def bridgeResendCb : BridgeRun := { s with busy := false, resends := s.resends - 1 }.resend

end Steps

/-- What can happen at a node: the parts of a call of `bridge_pub_handler`, the callbacks and what
the outside does. -/
inductive Event
  | enter (work : ℕ)
  | forward (work : ℕ) (m : ForwardMsg)
  | leave (work : ℕ)
  /-- A send of the work completes, and `bridge_send_cb` runs. -/
  | sendCb (work : ℕ)
  /-- The callback is over, and the `aio` is free again. -/
  | sendDone (work : ℕ)
  | resendCb
  | connect
  | disconnect
  deriving DecidableEq, Repr

def step (s : BridgeRun) : Event → Option BridgeRun
  | .enter k => if s.owner = none then some { s with owner := some k } else none
  | .forward k m => if s.owner = some k then some (s.forward k m) else none
  | .leave k => if s.owner = some k then some { s with owner := none } else none
  | .sendCb k =>
      if s.owner = none ∧ s.bridgeAio k = .sending then
        some { s.bridgeSendCb with bridgeAio := Function.update s.bridgeAio k .finishing }
      else none
  | .sendDone k =>
      if s.bridgeAio k = .finishing then
        some { s with bridgeAio := Function.update s.bridgeAio k .idle }
      else none
  | .resendCb => if s.owner = none ∧ 0 < s.resends then some s.bridgeResendCb else none
  | .connect => some { s with connected := true }
  | .disconnect => some { s with connected := false }

def run (s : BridgeRun) (es : List Event) : Option BridgeRun := es.foldlM step s

def flow (s : BridgeRun) : Flow BridgeItem :=
  ⟨s.built, s.handed, s.ctxMsgs.items, s.evicted, s.dropped⟩

section Flow

variable {s s' : BridgeRun} {k : ℕ} {m : ForwardMsg} {cap : ℕ}
  {P : Policy BridgeItem}

structure Shape (cap : ℕ) (s : BridgeRun) : Prop where
  cap_eq : s.ctxMsgs.cap = cap
  numbered : ∀ item ∈ s.built, item.id < s.built.length
  sorted : s.built.Pairwise (fun a b => a.id < b.id)

theorem bridgeSendCb_of_busy (h : s.busy = true) : s.bridgeSendCb = s := if_pos h

theorem bridgeSendCb_of_idle (h : s.busy = false) : s.bridgeSendCb = s.resend :=
  if_neg (by simp [h])

theorem Shape.next_not_mem (h : Shape cap s) (k : ℕ) (m : ForwardMsg) : s.next k m ∉ s.built :=
  fun hmem => lt_irrefl _ (h.numbered _ hmem)

theorem Shape.numbered_append (h : Shape cap s) (k : ℕ) (m : ForwardMsg) :
    ∀ item ∈ s.built ++ [s.next k m], item.id < (s.built ++ [s.next k m]).length := by
  intro item hitem
  rw [List.length_append, List.length_singleton]
  rcases List.mem_append.mp hitem with hitem | hitem
  · exact (h.numbered item hitem).trans (Nat.lt_succ_self _)
  · rw [List.mem_singleton.mp hitem]
    exact Nat.lt_succ_self _

theorem Shape.sorted_append (h : Shape cap s) (k : ℕ) (m : ForwardMsg) :
    (s.built ++ [s.next k m]).Pairwise (fun a b => a.id < b.id) := by
  rw [List.pairwise_append]
  refine ⟨h.sorted, List.pairwise_singleton _ _, ?_⟩
  intro a ha b hb
  rw [List.mem_singleton.mp hb]
  exact h.numbered a ha

theorem putMsg_of_room (hroom : s.ctxMsgs.full = false) (item : BridgeItem) :
    ∃ q, s.putMsg item = { s with ctxMsgs := q } ∧ q.items = s.ctxMsgs.items ++ [item] ∧
      q.cap = s.ctxMsgs.cap := by
  unfold putMsg
  cases hput : s.ctxMsgs.put item with
  | none =>
    rw [BoundedFifo.put_eq_none_iff.mp hput] at hroom
    cases hroom
  | some q =>
    obtain ⟨hitems, hcap, -⟩ := BoundedFifo.items_of_put hput
    exact ⟨q, rfl, hitems, hcap⟩

/-- Where a message goes that is not sent at once: into the cache, in the place of the oldest if the
cache is full. -/
theorem makeRoom_putMsg (hcap : 0 < s.ctxMsgs.cap) (item : BridgeItem) :
    ∃ q, q.cap = s.ctxMsgs.cap ∧
      (s.makeRoom.putMsg item = { s with ctxMsgs := q } ∧
          q.items = s.ctxMsgs.items ++ [item] ∨
        ∃ old rest, s.ctxMsgs.items = old :: rest ∧ rest.length + 1 = s.ctxMsgs.cap ∧
          s.makeRoom.putMsg item =
            { s with ctxMsgs := q, evicted := s.evicted ++ [(old, rest)] } ∧
          q.items = rest ++ [item]) := by
  cases hfull : s.ctxMsgs.full with
  | false =>
    have hroom : s.makeRoom = s := if_neg (by simp [hfull])
    obtain ⟨q, hput, hitems, hq⟩ := putMsg_of_room hfull item
    rw [hroom]
    exact ⟨q, hq, Or.inl ⟨hput, hitems⟩⟩
  | true =>
    obtain ⟨old, q₀, hget, hlen⟩ := BoundedFifo.exists_get_of_full hcap hfull
    obtain ⟨hitems₀, hcap₀⟩ := BoundedFifo.items_of_get hget
    have hroom : s.makeRoom =
        { s with ctxMsgs := q₀, evicted := s.evicted ++ [(old, q₀.items)] } := by
      rw [makeRoom, if_pos hfull, hget]
    have hfree : q₀.full = false := decide_eq_false (by omega)
    have hfree' : s.makeRoom.ctxMsgs.full = false := by rwa [hroom]
    obtain ⟨q, hput, hitems, hq⟩ := putMsg_of_room hfree' item
    rw [hroom] at hput hitems hq
    rw [hroom, hput]
    exact ⟨q, hq.trans hcap₀, Or.inr ⟨old, q₀.items, hitems₀, hlen, rfl, hitems⟩⟩

theorem makeRoom_putMsg_zero (hcap : s.ctxMsgs.cap = 0) (item : BridgeItem) :
    s.makeRoom.putMsg item = { s with dropped := s.dropped ++ [item] } := by
  have hnil : s.ctxMsgs.items = [] := List.length_eq_zero_iff.mp (by
    have hle := s.ctxMsgs.le_cap
    omega)
  have hfull : s.ctxMsgs.full = true := decide_eq_true (by rw [hnil, hcap, List.length_nil])
  have hroom : s.makeRoom = s := by
    rw [makeRoom, if_pos hfull, BoundedFifo.get_eq_none_iff.mpr hnil]
  rw [hroom, putMsg, BoundedFifo.put_eq_none_iff.mpr hfull]

/-- A message that is built goes one way through the flow. -/
theorem flow_forward (h : Shape cap s)
    (hguard : s.Direct k → P.direct s.flow (s.next k m))
    (hdrop : m.qos = 0 ∨ cap = 0 → P.drop (s.next k m)) :
    Shape cap (s.forward k m) ∧ Step cap P s.flow (s.forward k m).flow := by
  have hfresh := h.next_not_mem k m
  have hnum := h.numbered_append k m
  have hsorted := h.sorted_append k m
  unfold forward
  dsimp only
  split_ifs with hdirect hqos
  · exact ⟨⟨h.cap_eq, hnum, hsorted⟩, .direct hfresh (hguard hdirect)⟩
  · exact ⟨⟨h.cap_eq, hnum, hsorted⟩, .drop hfresh (hdrop (Or.inl hqos))⟩
  · rcases Nat.eq_zero_or_pos cap with hzero | hcap
    · rw [makeRoom_putMsg_zero (s := { s with built := s.built ++ [s.next k m] })
        (h.cap_eq.trans hzero)]
      exact ⟨⟨h.cap_eq, hnum, hsorted⟩, .drop hfresh (hdrop (Or.inr hzero))⟩
    · obtain ⟨q, hq, ⟨heq, hitems⟩ | ⟨old, rest, hhead, hlen, heq, hitems⟩⟩ :=
        makeRoom_putMsg (s := { s with built := s.built ++ [s.next k m] }) (by rwa [h.cap_eq])
          (s.next k m)
      · rw [heq]
        refine ⟨⟨hq.trans h.cap_eq, hnum, hsorted⟩, ?_⟩
        change Step cap P s.flow
          { s.flow with built := s.built ++ [s.next k m], waiting := q.items }
        rw [hitems]
        exact .store hfresh
      · rw [heq]
        refine ⟨⟨hq.trans h.cap_eq, hnum, hsorted⟩, ?_⟩
        change Step cap P s.flow
          { s.flow with
            built := s.built ++ [s.next k m], waiting := q.items
            evicted := s.evicted ++ [(old, rest)] }
        rw [hitems]
        exact .replace hfresh hhead (hlen.trans h.cap_eq)

theorem flow_resend (h : Shape cap s) :
    Shape cap s.resend ∧ (s.resend.flow = s.flow ∨ Step cap P s.flow s.resend.flow) := by
  unfold resend
  cases hget : s.ctxMsgs.get with
  | none => exact ⟨h, Or.inl rfl⟩
  | some p =>
    obtain ⟨item, q⟩ := p
    obtain ⟨hitems, hq⟩ := BoundedFifo.items_of_get hget
    exact ⟨⟨hq.trans h.cap_eq, h.numbered, h.sorted⟩, Or.inr (.resend hitems)⟩

theorem guarded {p : Prop} [Decidable p] {t : BridgeRun}
    (h : (if p then some t else none) = some s') : p ∧ s' = t := by
  split_ifs at h with hp
  exact ⟨hp, (Option.some.inj h).symm⟩

/-- Every event is a step of the flow or leaves it alone, and sends at once only under the test. -/
theorem flow_step {e : Event} (h : Shape cap s) (hstep : s.step e = some s')
    (hguard : ∀ k m, e = .forward k m → s.Direct k → P.direct s.flow (s.next k m))
    (hdrop : ∀ item : BridgeItem, item.msg.qos = 0 ∨ cap = 0 → P.drop item) :
    Shape cap s' ∧ (s'.flow = s.flow ∨ Step cap P s.flow s'.flow) := by
  have hkeep : ∀ {t : BridgeRun}, t.flow = s.flow → t.ctxMsgs = s.ctxMsgs → Shape cap t := by
    intro t hflow hq
    have hbuilt : t.built = s.built := congrArg Flow.built hflow
    exact ⟨hq ▸ h.cap_eq, hbuilt ▸ h.numbered, hbuilt ▸ h.sorted⟩
  cases e with
  | enter k =>
    obtain ⟨-, rfl⟩ := guarded hstep
    exact ⟨hkeep rfl rfl, Or.inl rfl⟩
  | forward k m =>
    obtain ⟨-, rfl⟩ := guarded hstep
    obtain ⟨hshape, hflow⟩ := flow_forward (P := P) h (hguard k m rfl)
      (hdrop (s.next k m))
    exact ⟨hshape, Or.inr hflow⟩
  | leave k =>
    obtain ⟨-, rfl⟩ := guarded hstep
    exact ⟨hkeep rfl rfl, Or.inl rfl⟩
  | sendCb k =>
    obtain ⟨-, rfl⟩ := guarded hstep
    cases hbusy : s.busy with
    | true =>
      rw [bridgeSendCb_of_busy hbusy]
      exact ⟨hkeep rfl rfl, Or.inl rfl⟩
    | false =>
      rw [bridgeSendCb_of_idle hbusy]
      obtain ⟨hshape, hflow⟩ := flow_resend (P := P) h
      exact ⟨⟨hshape.cap_eq, hshape.numbered, hshape.sorted⟩, hflow⟩
  | sendDone k =>
    obtain ⟨-, rfl⟩ := guarded hstep
    exact ⟨hkeep rfl rfl, Or.inl rfl⟩
  | resendCb =>
    obtain ⟨-, rfl⟩ := guarded hstep
    exact flow_resend (s := { s with busy := false, resends := s.resends - 1 })
      (hkeep rfl rfl)
  | connect =>
    obtain rfl := Option.some.inj hstep
    exact ⟨hkeep rfl rfl, Or.inl rfl⟩
  | disconnect =>
    obtain rfl := Option.some.inj hstep
    exact ⟨hkeep rfl rfl, Or.inl rfl⟩

end Flow

end BridgeRun

end NanoMQ
