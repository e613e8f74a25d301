import Mathlib.Data.List.Basic

/-!
# First-match scans with a latch

`scan` looks for the first accepted item of a list, as a policy evaluator does, but carries a latch
that some items trip. Behind a tripped latch the latched items are passed over. `scan_verdict_iff`
says exactly when the verdict is still the one of the plain first match.
-/

namespace RuleScan

variable {α β : Type*} (latched trips accept : α → Bool)

def scan : Bool → List α → Option α
  | _, [] => none
  | armed, x :: xs =>
      if latched x && !armed then scan armed xs
      else if accept x then some x
      else scan (armed && !trips x) xs

theorem scan_false (xs : List α) :
    scan latched trips accept false xs = (xs.filter (fun x => !latched x)).find? accept := by
  induction xs with
  | nil => rfl
  | cons x xs ih =>
    cases hl : latched x with
    | true => simp [scan, hl, ih]
    | false => cases ha : accept x <;> simp [scan, hl, ha, ih]

variable {latched trips accept}

theorem scan_append {pre : List α} (hpre : ∀ x ∈ pre, accept x = false) (armed : Bool)
    (rest : List α) :
    scan latched trips accept armed (pre ++ rest) =
      scan latched trips accept (armed && pre.all (fun x => !trips x)) rest := by
  induction pre generalizing armed with
  | nil => simp
  | cons x xs ih =>
    have hx : accept x = false := hpre x List.mem_cons_self
    have hxs : ∀ y ∈ xs, accept y = false := fun y hy => hpre y (List.mem_cons_of_mem x hy)
    cases armed with
    | true => simp [scan, hx, ih hxs]
    | false => cases hl : latched x <;> simp [scan, hx, hl, ih hxs]

theorem scan_of_forall_rejected {xs : List α} (hxs : ∀ x ∈ xs, accept x = false) (armed : Bool) :
    scan latched trips accept armed xs = none := by
  rw [← List.append_nil xs, scan_append hxs]
  rfl

/-- The first accepted item is found unless it is latched and an item before it trips. -/
theorem scan_first {pre post : List α} {x : α} (hpre : ∀ y ∈ pre, accept y = false)
    (hx : accept x = true) (h : ¬ (latched x = true ∧ ∃ y ∈ pre, trips y = true)) :
    scan latched trips accept true (pre ++ x :: post) = some x := by
  rw [scan_append hpre]
  cases hl : latched x with
  | false => simp [scan, hl, hx]
  | true =>
    have hall : pre.all (fun y => !trips y) = true := by
      apply List.all_eq_true.mpr
      intro y hy
      cases ht : trips y with
      | false => rfl
      | true => exact absurd ⟨hl, y, hy, ht⟩ h
    simp [scan, hl, hx, hall]

/-- A latched item behind a tripped latch gives way to the first later item that is not latched. -/
theorem scan_passed {pre post : List α} {x : α} (hpre : ∀ y ∈ pre, accept y = false)
    (hl : latched x = true) (ht : ∃ y ∈ pre, trips y = true) :
    scan latched trips accept true (pre ++ x :: post) =
      (post.filter (fun y => !latched y)).find? accept := by
  have hall : pre.all (fun y => !trips y) = false := by
    obtain ⟨y, hy, hty⟩ := ht
    apply List.all_eq_false.mpr
    exact ⟨y, hy, by simp [hty]⟩
  rw [scan_append hpre, hall, Bool.and_false, scan_false]
  simp [hl]

variable (latched trips accept) in
theorem scan_verdict_iff (verdict : Option α → β) (xs : List α) :
    verdict (scan latched trips accept true xs) = verdict (xs.find? accept) ↔
      ∀ pre x post, xs = pre ++ x :: post → (∀ y ∈ pre, accept y = false) → accept x = true →
        latched x = true → (∃ y ∈ pre, trips y = true) →
        verdict ((post.filter (fun y => !latched y)).find? accept) = verdict (some x) := by
  constructor
  · intro h pre x post hxs hpre hx hl ht
    have hfind : xs.find? accept = some x :=
      List.find?_eq_some_iff_append.mpr ⟨hx, pre, post, hxs, by simpa using hpre⟩
    rw [← scan_passed hpre hl ht, ← hxs, h, hfind]
  · intro h
    cases hfind : xs.find? accept with
    | none =>
      have hxs : ∀ x ∈ xs, accept x = false := by simpa using hfind
      rw [scan_of_forall_rejected hxs]
    | some x =>
      obtain ⟨hx, pre, post, hxs, hpre⟩ := List.find?_eq_some_iff_append.mp hfind
      have hpre' : ∀ y ∈ pre, accept y = false := by simpa using hpre
      by_cases hp : latched x = true ∧ ∃ y ∈ pre, trips y = true
      · rw [← h pre x post hxs hpre' hx hp.1 hp.2, hxs, scan_passed hpre' hp.1 hp.2]
      · rw [hxs, scan_first hpre' hx hp]

end RuleScan
