import NanoMQ.Bench
import NanoMQ.GuardedRun
import NanoMQ.TicketLimit

/-!
# The limit of the publishing benchmark

The works count up to a limit as the workers of `TicketLimit` do: a work has a ticket from its
increment on, and what it reads of the counter decides whether it may submit. As long as the counter
does not wrap, which a limit and a number of works below the largest `int` ensure, every step is a
step of those workers or changes nothing about the tickets.
-/

namespace NanoMQ

open GuardedRun

open TicketLimit (Kept)

/-- Where a work stands with its ticket: what it has read decides, before it is compared. -/
def PubPlace.phase (limit : Int32) : PubPlace → TicketLimit.Phase
  | .resting | .counting => .away
  | .comparing none _ => .ticketed
  | .comparing (some cnt) _ => if limit < cnt then .barred else .cleared
  | .sending => .cleared
  | .stopped => .barred

/-- The benchmark as workers who count up to a limit. -/
def Bench.tickets {ι : Type*} (limit : Int32) (b : Bench ι) : TicketLimit.State ι :=
  ⟨b.sendCnt.toInt.toNat, b.submitted, fun i => (b.works i).place.phase limit⟩

/-- A publishing work does not receive, and the limit it has read is the limit. -/
structure BenchWork.Good (limit : Int32) (w : BenchWork) : Prop where
  state : w.state ≠ .recv
  read : ∀ cnt l, w.place = .comparing cnt (some l) → l = limit

structure Bench.Good {ι : Type*} [Fintype ι] (limit : Int32) (b : Bench ι) : Prop where
  sendLimit : b.sendLimit = limit
  nonneg : 0 ≤ b.sendCnt.toInt
  works : ∀ i, (b.works i).Good limit
  kept : Kept limit.toInt.toNat (b.tickets limit)

section Steps

variable {ι : Type*} [DecidableEq ι]

theorem works_set (b : Bench ι) (i : ι) (w : BenchWork) :
    (b.set i w).works = Function.update b.works i w := rfl

theorem phase_update (limit : Int32) (works : ι → BenchWork) (i : ι) (w : BenchWork) :
    (fun j => (Function.update works i w j).place.phase limit) =
      Function.update (fun j => (works j).place.phase limit) i (w.place.phase limit) :=
  Function.comp_update (fun w : BenchWork => w.place.phase limit) works i w

variable [Fintype ι] {limit : Int32} {b : Bench ι} {i : ι}

omit [Fintype ι] in
theorem tickets_set (w : BenchWork) :
    (b.set i w).tickets limit = ⟨(b.tickets limit).counter, (b.tickets limit).spent,
      Function.update (b.tickets limit).phase i (w.place.phase limit)⟩ := by
  rw [Bench.tickets, works_set, phase_update]
  rfl

theorem good_works_set (h : b.Good limit) {w : BenchWork} (hw : w.Good limit) :
    ∀ j, ((b.set i w).works j).Good limit := by
  intro j
  rw [works_set]
  by_cases hj : j = i
  · subst hj
    rwa [Function.update_self]
  · rw [Function.update_of_ne hj]
    exact h.works j

/-- A step of one work that changes nothing about its ticket. -/
theorem Bench.Good.set (h : b.Good limit) {w : BenchWork} (hw : w.Good limit)
    (hphase : w.place.phase limit = (b.works i).place.phase limit) : (b.set i w).Good limit where
  sendLimit := h.sendLimit
  nonneg := h.nonneg
  works := good_works_set h hw
  kept := by
    have hsame : (b.set i w).tickets limit = b.tickets limit := by
      rw [tickets_set, hphase]
      exact congrArg _ (Function.update_eq_self i (b.tickets limit).phase)
    rw [hsame]
    exact h.kept

omit [DecidableEq ι] in
theorem Bench.Good.exit (h : b.Good limit) : Bench.Good limit { b with exited := true } :=
  ⟨h.sendLimit, h.nonneg, h.works, h.kept⟩

theorem good_of_place {limit : Int32} {w : BenchWork} (hstate : w.state ≠ .recv)
    (hplace : ∀ cnt l, w.place ≠ .comparing cnt l) : w.Good limit :=
  ⟨hstate, fun cnt l heq => absurd heq (hplace cnt (some l))⟩

theorem Bench.Good.setAway (h : b.Good limit) (hplace : (b.works i).place = .resting)
    {w : BenchWork} (hstate : w.state ≠ .recv) (hw : w.place = .resting ∨ w.place = .counting) :
    (b.set i w).Good limit := by
  apply h.set
  · apply good_of_place hstate
    intro cnt l heq
    rcases hw with hw | hw
    · rw [hw] at heq
      cases heq
    · rw [hw] at heq
      cases heq
  · rw [hplace]
    rcases hw with hw | hw
    · rw [hw]
    · rw [hw]
      rfl

theorem good_enterSend (h : b.Good limit) (hplace : (b.works i).place = .resting) {w : BenchWork}
    (hstate : w.state ≠ .recv) (hw : w.place = .resting) (rv : ℤ) :
    (b.enterSend i w rv).Good limit := by
  rw [Bench.enterSend]
  split_ifs
  · exact (h.setAway hplace hstate (Or.inl hw)).exit
  · exact h.setAway hplace hstate (Or.inr rfl)

theorem good_call (h : b.Good limit) (hplace : (b.works i).place = .resting) (interval : Int32)
    (rv : ℤ) (now : UInt64) : (b.call interval i (b.works i) rv now).Good limit := by
  have hlate : ∀ ts, (⟨.send, ts, (b.works i).place⟩ : BenchWork).state ≠ .recv := by
    intro ts heq
    cases heq
  rw [Bench.call]
  split
  · exact h.setAway hplace (h.works i).state (Or.inr rfl)
  · rw [Bench.wait]
    split_ifs
    · exact h.setAway hplace (hlate _) (Or.inl hplace)
    · exact good_enterSend h hplace (hlate _) hplace rv
    · exact good_enterSend h hplace (hlate _) hplace rv
  · exact good_enterSend h hplace (h.works i).state hplace rv
  · exact absurd ‹_› (h.works i).state

theorem toInt_add_one {x : Int32} (h : x.toInt + 1 < 2147483648) : (x + 1).toInt = x.toInt + 1 := by
  have hle := x.le_toInt
  rw [Int32.toInt_add]
  show Int.bmod (x.toInt + 1) (2 ^ 32) = _
  rw [Int.bmod_def]
  omega

theorem good_inc (h : b.Good limit) (hplace : (b.works i).place = .counting)
    (hroom : limit.toInt + Fintype.card ι < 2147483648) (hpos : 0 < limit.toInt) :
    Bench.Good limit { b.set i { b.works i with place := .comparing none none } with
      sendCnt := b.sendCnt + 1 } := by
  have haway : (b.tickets limit).phase i = .away := by
    show (b.works i).place.phase limit = .away
    rw [hplace]
    rfl
  have hnonneg := h.nonneg
  have hlt : b.sendCnt.toInt.toNat < limit.toInt.toNat + Fintype.card ι :=
    h.kept.counter_lt haway
  have hnext : (b.sendCnt + 1).toInt = b.sendCnt.toInt + 1 := toInt_add_one (by omega)
  have hw : ({ b.works i with place := .comparing none none } : BenchWork).Good limit := by
    refine ⟨(h.works i).state, ?_⟩
    intro cnt l heq
    cases heq
  refine ⟨h.sendLimit, ?_, good_works_set h hw, ?_⟩
  · rw [hnext]
    omega
  · have hkept := h.kept.step (.take _ i haway)
    have htickets : Bench.tickets limit
        { b.set i { b.works i with place := .comparing none none } with sendCnt := b.sendCnt + 1 } =
        ⟨(b.tickets limit).counter + 1, (b.tickets limit).spent,
          Function.update (b.tickets limit).phase i .ticketed⟩ := by
      rw [Bench.tickets, works_set, phase_update, hnext, Int.toNat_add hnonneg (by decide)]
      rfl
    rwa [htickets]

theorem good_getCnt (h : b.Good limit) (hpos : 0 < limit.toInt) {l : Option Int32}
    (hplace : (b.works i).place = .comparing none l) :
    (b.set i { b.works i with place := .comparing (some b.sendCnt) l }).Good limit := by
  have hticketed : (b.tickets limit).phase i = .ticketed := by
    show (b.works i).place.phase limit = .ticketed
    rw [hplace]
    rfl
  have hnonneg := h.nonneg
  have hw : ({ b.works i with place := .comparing (some b.sendCnt) l } : BenchWork).Good limit := by
    refine ⟨(h.works i).state, ?_⟩
    intro cnt l' heq
    cases heq
    exact (h.works i).read none l' hplace
  refine ⟨h.sendLimit, hnonneg, good_works_set h hw, ?_⟩
  rw [tickets_set]
  dsimp only
  rw [PubPlace.phase]
  by_cases hlt : limit < b.sendCnt
  · have hover : limit.toInt.toNat < b.sendCnt.toInt.toNat := by
      have := Int32.lt_iff_toInt_lt.mp hlt
      omega
    rw [if_pos hlt]
    exact h.kept.step (.bar _ i hticketed hover)
  · have hunder : b.sendCnt.toInt.toNat ≤ limit.toInt.toNat := by
      have := mt Int32.lt_iff_toInt_lt.mpr hlt
      omega
    rw [if_neg hlt]
    exact h.kept.step (.clear _ i hticketed hunder)

theorem good_getLimit (h : b.Good limit) {cnt : Option Int32}
    (hplace : (b.works i).place = .comparing cnt none) :
    (b.set i { b.works i with place := .comparing cnt (some b.sendLimit) }).Good limit := by
  have hw : ({ b.works i with place := .comparing cnt (some b.sendLimit) } :
      BenchWork).Good limit := by
    refine ⟨(h.works i).state, ?_⟩
    intro cnt' l heq
    cases heq
    exact h.sendLimit
  apply h.set hw
  rw [hplace]
  cases cnt <;> rfl

theorem good_compare (h : b.Good limit) {cnt l : Int32}
    (hplace : (b.works i).place = .comparing (some cnt) (some l)) :
    (b.set i { b.works i with place := if l < cnt then .stopped else .sending }).Good limit := by
  obtain rfl := (h.works i).read _ _ hplace
  have hw : ({ b.works i with place := if l < cnt then .stopped else .sending } :
      BenchWork).Good l := by
    refine ⟨(h.works i).state, ?_⟩
    intro _ _ heq
    dsimp only at heq
    split_ifs at heq
  apply h.set hw
  rw [hplace]
  dsimp only
  rw [PubPlace.phase]
  split_ifs <;> rfl

theorem good_submit (h : b.Good limit) (hplace : (b.works i).place = .sending) (now : UInt64) :
    (b.submit i (b.works i) now).Good limit := by
  have hcleared : (b.tickets limit).phase i = .cleared := by
    show (b.works i).place.phase limit = .cleared
    rw [hplace]
    rfl
  have hw : (⟨.wait, if (b.works i).state = .init then now else (b.works i).lastSendTs, .resting⟩ :
      BenchWork).Good limit :=
    good_of_place (by intro heq; cases heq) (by intro _ _ heq; cases heq)
  refine ⟨h.sendLimit, h.nonneg, good_works_set h hw, ?_⟩
  have hkept := h.kept.step (.spend _ i hcleared)
  rw [Bench.tickets, Bench.submit]
  dsimp only
  rw [works_set, phase_update]
  exact hkept

theorem benchStep_good (hroom : limit.toInt + Fintype.card ι < 2147483648) (hpos : 0 < limit.toInt)
    {interval : Int32} {b' : Bench ι} {e : ι × BenchEvent} (h : b.Good limit)
    (hstep : benchStep interval b e = some b') : b'.Good limit := by
  unfold benchStep at hstep
  dsimp only at hstep
  split_ifs at hstep
  split at hstep
  · cases hstep
    exact good_call h ‹_› interval _ _
  · cases hstep
    exact good_inc h ‹_› hroom hpos
  · cases hstep
    exact good_getCnt h hpos ‹_›
  · cases hstep
    exact good_getLimit h ‹_›
  · cases hstep
    exact good_compare h ‹_›
  · cases hstep
    exact good_submit h ‹_› _
  · cases hstep

end Steps

theorem benchStart_good {ι : Type*} [Fintype ι] {limit : Int32} (hpos : 0 < limit.toInt) :
    (benchStart limit : Bench ι).Good limit where
  sendLimit := by
    have hne : limit ≠ 0 := by
      rintro rfl
      exact absurd hpos (by decide)
    exact if_neg hne
  nonneg := le_refl 0
  works _ := good_of_place (by intro heq; cases heq) (by intro _ _ heq; cases heq)
  kept := TicketLimit.kept_start _

/-- In whatever order the works take their steps, no more packets are submitted than the limit. -/
theorem bench_submitted_le (W : ℕ) (limit interval : Int32) (hpos : 0 < limit.toInt)
    (hroom : limit.toInt + W < 2147483648) (events : List (Fin W × BenchEvent)) (b : Bench (Fin W))
    (hrun : events.foldlM (benchStep interval) (benchStart limit) = some b) :
    b.submitted ≤ limit.toInt := by
  have hgood : b.Good limit := by
    refine run_invariant_of_step (I := fun b => Bench.Good limit b) ?_ (benchStart_good hpos) hrun
    intro s e s' hs hstep
    exact benchStep_good (by rwa [Fintype.card_fin]) hpos hs hstep
  have hle : b.submitted ≤ limit.toInt.toNat := hgood.kept.spent_le
  omega

/-- Two works and a limit of one: the second counts up before the first has submitted, and ends. -/
theorem bench_submitted_le_two :
    let events : List (Fin 2 × BenchEvent) :=
      [(0, .call 0 7), (1, .call 0 7), (0, .inc), (0, .getCnt), (1, .inc), (1, .getLimit),
        (1, .getCnt), (1, .compare), (0, .getLimit), (0, .compare), (0, .submit 8)]
    ∃ b : Bench (Fin 2), events.foldlM (benchStep 1000) (benchStart 1) = some b ∧
      b.submitted = 1 ∧ (b.works 1).place = .stopped ∧ (b.submitted : ℤ) ≤ (1 : Int32).toInt := by
  intro events
  have hends : (events.foldlM (benchStep 1000) (benchStart 1)).map
      (fun b => (b.submitted, (b.works 1).place)) = some (1, .stopped) := rfl
  obtain ⟨b, hrun, hb⟩ := Option.map_eq_some_iff.mp hends
  obtain ⟨hsubmitted, hplace⟩ := Prod.mk.inj hb
  exact ⟨b, hrun, hsubmitted, hplace,
    bench_submitted_le 2 1 1000 (by decide) (by decide) events b hrun⟩

end NanoMQ
