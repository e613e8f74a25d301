import Mathlib.Data.List.Basic

/-!
# Two stations that exchange items

Items enter at either of two stations, cross to the other one and leave there. Each station is a
queue that holds both its own arrivals and what came over, so that items of both directions stand in
it mixed. A step may also lose its item. Still every direction is a queue from end to end: what has
left and what is on its way, in the order of the way, is a part of what entered, in the same order,
and all of it if nothing was lost.
-/

namespace Crossing

variable {α : Type*} {rightward : α → Bool}

structure Stations (α : Type*) where
  left : List α
  right : List α
  leftIn : List α
  rightIn : List α
  leftOut : List α
  rightOut : List α

def Stations.swap (s : Stations α) : Stations α :=
  ⟨s.right, s.left, s.rightIn, s.leftIn, s.rightOut, s.leftOut⟩

def keep (kept : Bool) (x : α) : List α := if kept then [x] else []

@[simp] theorem keep_true (x : α) : keep true x = [x] := rfl

@[simp] theorem keep_false (x : α) : keep false x = [] := rfl

/-- A step, and whether it keeps its item. -/
inductive Step (rightward : α → Bool) : Bool → Stations α → Stations α → Prop
  | idle (s : Stations α) : Step rightward true s s
  | enterLeft (kept : Bool) (s : Stations α) {x : α} (hx : rightward x = true) :
      Step rightward kept s
        { s with left := s.left ++ keep kept x, leftIn := s.leftIn ++ [x] }
  | enterRight (kept : Bool) (s : Stations α) {x : α} (hx : rightward x = false) :
      Step rightward kept s
        { s with right := s.right ++ keep kept x, rightIn := s.rightIn ++ [x] }
  | crossLeft (kept : Bool) (s : Stations α) {x : α} {rest : List α} (hx : rightward x = true)
      (hleft : s.left = x :: rest) :
      Step rightward kept s { s with left := rest, right := s.right ++ keep kept x }
  | crossRight (kept : Bool) (s : Stations α) {x : α} {rest : List α} (hx : rightward x = false)
      (hright : s.right = x :: rest) :
      Step rightward kept s { s with right := rest, left := s.left ++ keep kept x }
  | leaveLeft (kept : Bool) (s : Stations α) {x : α} {rest : List α} (hx : rightward x = false)
      (hleft : s.left = x :: rest) :
      Step rightward kept s { s with left := rest, leftOut := s.leftOut ++ keep kept x }
  | leaveRight (kept : Bool) (s : Stations α) {x : α} {rest : List α} (hx : rightward x = true)
      (hright : s.right = x :: rest) :
      Step rightward kept s { s with right := rest, rightOut := s.rightOut ++ keep kept x }

/-- What has left on the right and what is on its way there. -/
def rightFlow (rightward : α → Bool) (s : Stations α) : List α :=
  s.rightOut ++ (s.right ++ s.left).filter rightward

def leftFlow (rightward : α → Bool) (s : Stations α) : List α :=
  rightFlow (fun x => !rightward x) s.swap

variable {s s' : Stations α} {kept : Bool}

theorem Step.of_eq {s'' : Stations α} (h : Step rightward kept s s') (heq : s'' = s') :
    Step rightward kept s s'' := by
  rwa [heq]

theorem Step.swap (h : Step rightward kept s s') :
    Step (fun x => !rightward x) kept s.swap s'.swap := by
  cases h with
  | idle => exact .idle _
  | enterLeft _ _ hx => exact .enterRight kept s.swap (congrArg not hx)
  | enterRight _ _ hx => exact .enterLeft kept s.swap (congrArg not hx)
  | crossLeft _ _ hx hleft => exact .crossRight kept s.swap (congrArg not hx) hleft
  | crossRight _ _ hx hright => exact .crossLeft kept s.swap (congrArg not hx) hright
  | leaveLeft _ _ hx hleft => exact .leaveRight kept s.swap (congrArg not hx) hleft
  | leaveRight _ _ hx hright => exact .leaveLeft kept s.swap (congrArg not hx) hright

theorem Step.rightFlow (h : Step rightward kept s s') :
    ∃ new, s'.leftIn = s.leftIn ++ new ∧
      List.Sublist (Crossing.rightFlow rightward s') (Crossing.rightFlow rightward s ++ new) ∧
      (kept = true → Crossing.rightFlow rightward s' = Crossing.rightFlow rightward s ++ new) := by
  cases h with
  | idle => exact ⟨[], by simp, by simp, by simp⟩
  | enterLeft _ _ hx =>
    refine ⟨_, rfl, ?_, ?_⟩
    · cases kept <;> simp [Crossing.rightFlow, hx]
    · rintro rfl
      simp [Crossing.rightFlow, hx]
  | enterRight _ _ hx | crossLeft _ _ hx hitem | crossRight _ _ hx hitem | leaveLeft _ _ hx hitem
  | leaveRight _ _ hx hitem =>
    refine ⟨[], by simp, ?_, ?_⟩
    · cases kept <;> simp [Crossing.rightFlow, *]
    · rintro rfl
      simp [Crossing.rightFlow, *]

structure InOrder (rightward : α → Bool) (s : Stations α) : Prop where
  right : List.Sublist (rightFlow rightward s) s.leftIn
  left : List.Sublist (leftFlow rightward s) s.rightIn

structure Complete (rightward : α → Bool) (s : Stations α) : Prop where
  right : rightFlow rightward s = s.leftIn
  left : leftFlow rightward s = s.rightIn

theorem InOrder.step (h : InOrder rightward s) (hstep : Step rightward kept s s') :
    InOrder rightward s' where
  right := by
    obtain ⟨new, hin, hflow, -⟩ := hstep.rightFlow
    rw [hin]
    exact hflow.trans (h.right.append_right new)
  left := by
    obtain ⟨new, hin, hflow, -⟩ := hstep.swap.rightFlow
    have hright : s'.rightIn = s.rightIn ++ new := hin
    rw [hright]
    exact hflow.trans (h.left.append_right new)

theorem Complete.step (h : Complete rightward s) (hstep : Step rightward true s s') :
    Complete rightward s' where
  right := by
    obtain ⟨new, hin, -, hflow⟩ := hstep.rightFlow
    rw [hin, hflow rfl, h.right]
  left := by
    obtain ⟨new, hin, -, hflow⟩ := hstep.swap.rightFlow
    have hright : s'.rightIn = s.rightIn ++ new := hin
    rw [leftFlow, hflow rfl, hright, ← h.left, leftFlow]

theorem InOrder.mem (h : InOrder rightward s) {x : α} (hx : x ∈ s.left ∨ x ∈ s.right) :
    x ∈ s.leftIn ∨ x ∈ s.rightIn := by
  cases hr : rightward x with
  | true =>
    refine Or.inl (h.right.subset ?_)
    rw [rightFlow, List.mem_append, List.mem_filter, List.mem_append]
    exact Or.inr ⟨hx.symm, hr⟩
  | false =>
    refine Or.inr (h.left.subset ?_)
    rw [leftFlow, rightFlow, List.mem_append, List.mem_filter, List.mem_append]
    refine Or.inr ⟨hx, ?_⟩
    rw [hr]
    rfl

end Crossing
