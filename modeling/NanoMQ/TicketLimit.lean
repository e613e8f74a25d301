import Mathlib.Algebra.BigOperators.Group.Finset.Piecewise
import Mathlib.Algebra.Order.BigOperators.Group.Finset
import Mathlib.Data.Fintype.BigOperators

/-!
# A limit by counting

Workers share a counter. A worker who wants to spend first increments it and then reads it, in two
steps: if what it reads is at most the limit it may spend once, and if not it gives up for good.
Each increment stands for one thing that was spent or for one worker who has not spent yet, so a
counter within the limit leaves room for everyone who has read it so, and no more is spent than the
limit.
-/

namespace TicketLimit

inductive Phase
  | away | ticketed | cleared | barred
  deriving DecidableEq

structure State (ι : Type*) where
  counter : ℕ
  spent : ℕ
  phase : ι → Phase

variable {ι : Type*}

inductive Step [DecidableEq ι] (limit : ℕ) : State ι → State ι → Prop
  | take (s : State ι) (i : ι) (h : s.phase i = .away) :
      Step limit s ⟨s.counter + 1, s.spent, Function.update s.phase i .ticketed⟩
  | clear (s : State ι) (i : ι) (h : s.phase i = .ticketed) (hle : s.counter ≤ limit) :
      Step limit s ⟨s.counter, s.spent, Function.update s.phase i .cleared⟩
  | bar (s : State ι) (i : ι) (h : s.phase i = .ticketed) (hlt : limit < s.counter) :
      Step limit s ⟨s.counter, s.spent, Function.update s.phase i .barred⟩
  | spend (s : State ι) (i : ι) (h : s.phase i = .cleared) :
      Step limit s ⟨s.counter, s.spent + 1, Function.update s.phase i .away⟩

def holding : Phase → ℕ
  | .away => 0
  | .ticketed | .cleared | .barred => 1

def mayspend : Phase → ℕ
  | .cleared => 1
  | .away | .ticketed | .barred => 0

variable [Fintype ι]

def total (weight : Phase → ℕ) (phase : ι → Phase) : ℕ := ∑ i, weight (phase i)

theorem total_update [DecidableEq ι] (weight : Phase → ℕ) (phase : ι → Phase) (i : ι) (x : Phase) :
    total weight (Function.update phase i x) + weight (phase i) =
      total weight phase + weight x := by
  have hcomp : (fun j => weight (Function.update phase i x j)) =
      Function.update (fun j => weight (phase j)) i (weight x) :=
    Function.comp_update weight phase i x
  have hsum := Finset.add_sum_erase Finset.univ (fun j => weight (phase j)) (Finset.mem_univ i)
  rw [total, hcomp, Finset.sum_update_of_mem (Finset.mem_univ i), Finset.sdiff_singleton_eq_erase,
    total]
  omega

theorem total_le_card {weight : Phase → ℕ} (h : ∀ x, weight x ≤ 1) (phase : ι → Phase) :
    total weight phase ≤ Fintype.card ι := by
  calc total weight phase ≤ ∑ _i : ι, 1 := Finset.sum_le_sum (fun i _ => h (phase i))
    _ = Fintype.card ι := Fintype.card_eq_sum_ones.symm

theorem mayspend_le_holding (phase : ι → Phase) : total mayspend phase ≤ total holding phase := by
  apply Finset.sum_le_sum
  intro i _
  cases phase i <;> decide

/-- Each increment was spent or is held, and those who may spend leave the limit intact. -/
structure Kept (limit : ℕ) (s : State ι) : Prop where
  counter : s.counter = s.spent + total holding s.phase
  limit : s.spent + total mayspend s.phase ≤ limit

theorem Kept.step [DecidableEq ι] {limit : ℕ} {s t : State ι} (h : Kept limit s)
    (hstep : Step limit s t) : Kept limit t := by
  obtain ⟨hcounter, hlimit⟩ := h
  cases hstep with
  | take i hi =>
    have hhold := total_update holding s.phase i .ticketed
    have hmay := total_update mayspend s.phase i .ticketed
    rw [hi] at hhold hmay
    simp only [holding, mayspend] at hhold hmay
    constructor <;> dsimp only <;> omega
  | clear i hi hle =>
    have hhold := total_update holding s.phase i .cleared
    have hmay := mayspend_le_holding (Function.update s.phase i .cleared)
    rw [hi] at hhold
    simp only [holding] at hhold
    constructor <;> dsimp only <;> omega
  | bar i hi hlt =>
    have hhold := total_update holding s.phase i .barred
    have hmay := total_update mayspend s.phase i .barred
    rw [hi] at hhold hmay
    simp only [holding, mayspend] at hhold hmay
    constructor <;> dsimp only <;> omega
  | spend i hi =>
    have hhold := total_update holding s.phase i .away
    have hmay := total_update mayspend s.phase i .away
    rw [hi] at hhold hmay
    simp only [holding, mayspend] at hhold hmay
    constructor <;> dsimp only <;> omega

theorem Kept.spent_le {limit : ℕ} {s : State ι} (h : Kept limit s) : s.spent ≤ limit :=
  Nat.le_trans (Nat.le_add_right _ _) h.limit

/-- The counter exceeds the limit by at most one for each worker who is not away. -/
theorem Kept.counter_lt [DecidableEq ι] {limit : ℕ} {s : State ι} (h : Kept limit s) {i : ι}
    (hi : s.phase i = .away) : s.counter < limit + Fintype.card ι := by
  have hspent := h.spent_le
  have hhold := total_update holding s.phase i .ticketed
  have hheld : total holding (Function.update s.phase i .ticketed) ≤ Fintype.card ι :=
    total_le_card (fun x => by cases x <;> decide) _
  rw [hi] at hhold
  simp only [holding] at hhold
  rw [h.counter]
  omega

theorem kept_start (limit : ℕ) : Kept limit (⟨0, 0, fun _ => .away⟩ : State ι) where
  counter := by simp [total, holding]
  limit := by simp [total, mayspend]

end TicketLimit
