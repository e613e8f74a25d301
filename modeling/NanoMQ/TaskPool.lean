import Mathlib.Data.List.Perm.Basic

/-!
# Tasks that hold things

Tasks are at work at the same time, and each step takes one of them on or to its end. A task may
hold a thing, and `holders` counts the tasks that hold a given one. What a single task does to the
thing it holds is then an equation between counts, and of a thing with one holder every other task
keeps off.
-/

namespace TaskPool

variable {τ κ : Type*} [DecidableEq κ]

def holders (hold : τ → Option κ) (ts : List τ) (k : κ) : ℕ := ts.countP (fun t => hold t = some k)

variable {hold : τ → Option κ} {ts rest : List τ} {t : τ} {t' : Option τ} {k : κ}

theorem taken_perm {i : ℕ} (h : ts[i]? = some t) : (t :: ts.eraseIdx i).Perm ts := by
  obtain ⟨hlt, rfl⟩ := List.getElem?_eq_some_iff.mp h
  exact List.getElem_cons_eraseIdx_perm hlt

theorem holders_perm {ts' : List τ} (hperm : ts.Perm ts') :
    holders hold ts k = holders hold ts' k := hperm.countP_eq _

@[simp] theorem holders_nil : holders hold [] k = 0 := rfl

@[simp] theorem holders_cons : holders hold (t :: rest) k =
    holders hold rest k + if hold t = some k then 1 else 0 := by
  simp only [holders, List.countP_cons, decide_eq_true_eq]

@[simp] theorem holders_toList_append : holders hold (t'.toList ++ rest) k =
    holders hold rest k + if t'.bind hold = some k then 1 else 0 := by
  cases t' with
  | none => rfl
  | some t => exact holders_cons

theorem hold_ne_of_holders_eq_zero (h : holders hold ts k = 0) (ht : t ∈ ts) :
    hold t ≠ some k := by
  intro heq
  have hpos : 0 < holders hold ts k := List.countP_pos_iff.mpr ⟨t, ht, decide_eq_true heq⟩
  omega

end TaskPool
