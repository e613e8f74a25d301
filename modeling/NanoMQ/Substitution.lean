import Mathlib.Data.List.Basic
import Mathlib.Data.List.Infix

/-!
# Substitution of a word in a list

`substitute pat rep s` replaces the occurrences of `pat` in `s` by `rep`, scanning from left to
right without overlap and without reading the inserted text again. `strstr` finds the first
occurrence, and the two are related by the equations that a copying loop follows. A separator that
occurs neither in the word nor in its replacement splits the result exactly as it splits the input.
-/

namespace Substitution

variable {α : Type*} [DecidableEq α]

/-- Position of the first occurrence of `pat`. -/
def strstr (pat : List α) : List α → Option ℕ
  | [] => if pat = [] then some 0 else none
  | a :: s => if pat.isPrefixOf (a :: s) then some 0 else (strstr pat s).map (· + 1)

/-- The scan with `skip` symbols of the current occurrence still to be dropped. -/
def substituteFrom (pat rep : List α) : ℕ → List α → List α
  | _, [] => []
  | skip + 1, _ :: s => substituteFrom pat rep skip s
  | 0, a :: s =>
      if pat.isPrefixOf (a :: s) then rep ++ substituteFrom pat rep (pat.length - 1) s
      else a :: substituteFrom pat rep 0 s

def substitute (pat rep s : List α) : List α := substituteFrom pat rep 0 s

theorem strstr_some_split {pat s : List α} {i : ℕ} (h : strstr pat s = some i) :
    s = s.take i ++ (pat ++ s.drop (i + pat.length)) := by
  induction s generalizing i with
  | nil =>
      simp only [strstr] at h
      split_ifs at h with hp
      simp [hp]
  | cons a s ih =>
      simp only [strstr] at h
      split_ifs at h with hp
      · obtain rfl : 0 = i := by simpa using h
        obtain ⟨t, ht⟩ := List.isPrefixOf_iff_prefix.mp hp
        rw [← ht]
        simp
      · obtain ⟨j, hj, rfl⟩ := Option.map_eq_some_iff.mp h
        have hs := ih hj
        rw [Nat.add_right_comm, List.take_succ_cons, List.drop_succ_cons, List.cons_append, ← hs]

theorem strstr_some_length {pat s : List α} {i : ℕ} (hpat : pat ≠ []) (h : strstr pat s = some i) :
    i + pat.length ≤ s.length := by
  have hlen := congrArg List.length (strstr_some_split h)
  have hpos := List.length_pos_of_ne_nil hpat
  simp only [List.length_append, List.length_take, List.length_drop] at hlen
  omega

theorem find?_tails_isPrefixOf (pat s : List α) :
    s.tails.find? pat.isPrefixOf = (strstr pat s).map (s.drop ·) := by
  induction s with
  | nil => cases pat <;> rfl
  | cons a s ih =>
    rw [List.tails_cons, strstr]
    by_cases hp : pat.isPrefixOf (a :: s) = true
    · rw [List.find?_cons_of_pos hp, if_pos hp]
      rfl
    · rw [List.find?_cons_of_neg hp, if_neg hp, ih, Option.map_map]
      rfl

/-- Induction along the occurrences of a word. -/
theorem occurrence_induction {pat : List α} (hpat : pat ≠ []) {P : List α → Prop}
    (hnone : ∀ s, strstr pat s = none → P s)
    (hsome : ∀ s i, strstr pat s = some i → P (s.drop (i + pat.length)) → P s) (s : List α) :
    P s := by
  induction hn : s.length using Nat.strongRecOn generalizing s with
  | ind n ih =>
    cases hs : strstr pat s with
    | none => exact hnone s hs
    | some i =>
      have hlen : 0 < s.length := by
        rw [strstr_some_split hs]
        have := List.length_pos_of_ne_nil hpat
        simp only [List.length_append]
        omega
      have hpos := List.length_pos_of_ne_nil hpat
      apply hsome s i hs
      apply ih _ _ _ rfl
      rw [List.length_drop]
      omega

omit [DecidableEq α] in
/-- What stands behind a match needs one round less. -/
theorem length_drop_match_le {pat s : List α} (hpat : pat ≠ []) (i : ℕ) {fuel : ℕ}
    (h : s.length ≤ fuel + 1) : (s.drop (i + pat.length)).length ≤ fuel := by
  have hpos := List.length_pos_of_ne_nil hpat
  rw [List.length_drop]
  omega

theorem substituteFrom_skip (pat rep : List α) (skip : ℕ) (s : List α) :
    substituteFrom pat rep skip s = substitute pat rep (s.drop skip) := by
  induction skip generalizing s with
  | zero => rfl
  | succ skip ih =>
      cases s with
      | nil => simp [substituteFrom, substitute]
      | cons a s => simpa [substituteFrom] using ih s

theorem substitute_of_strstr_none {pat rep s : List α} (h : strstr pat s = none) :
    substitute pat rep s = s := by
  induction s with
  | nil => rfl
  | cons a s ih =>
      simp only [strstr] at h
      split_ifs at h with hp
      have hs : strstr pat s = none := by simpa using h
      have hrest := ih hs
      unfold substitute at hrest ⊢
      rw [substituteFrom, if_neg hp, hrest]

theorem substitute_of_strstr_some {pat rep s : List α} {i : ℕ} (hpat : pat ≠ [])
    (h : strstr pat s = some i) :
    substitute pat rep s = s.take i ++ (rep ++ substitute pat rep (s.drop (i + pat.length))) := by
  induction s generalizing i with
  | nil => simp [strstr, hpat] at h
  | cons a s ih =>
      simp only [strstr] at h
      split_ifs at h with hp
      · obtain rfl : 0 = i := by simpa using h
        have hlen : pat.length = (pat.length - 1) + 1 := by
          have := List.length_pos_of_ne_nil hpat
          omega
        rw [substitute, substituteFrom, if_pos hp, substituteFrom_skip, Nat.zero_add, hlen,
          List.drop_succ_cons, List.take_zero, List.nil_append, Nat.add_sub_cancel]
      · obtain ⟨j, hj, rfl⟩ := Option.map_eq_some_iff.mp h
        have hs := ih hj
        unfold substitute at hs
        rw [substitute, substituteFrom, if_neg hp, hs, Nat.add_right_comm, List.take_succ_cons,
          List.drop_succ_cons, List.cons_append]
        rfl

theorem length_substitute {pat : List α} (hpat : pat ≠ []) (rep s : List α) :
    ∃ n, (substitute pat rep s).length + n * pat.length = s.length + n * rep.length := by
  induction s using occurrence_induction hpat with
  | hnone s hs => exact ⟨0, by rw [substitute_of_strstr_none hs, Nat.zero_mul, Nat.zero_mul]⟩
  | hsome s i hs ih =>
    obtain ⟨n, hn⟩ := ih
    refine ⟨n + 1, ?_⟩
    have hlen := congrArg List.length (strstr_some_split hs)
    rw [substitute_of_strstr_some hpat hs]
    simp only [List.length_append] at hlen ⊢
    rw [Nat.add_one_mul, Nat.add_one_mul]
    omega

/-- Substitution leaves a text as it is only if there is nothing to replace or nothing changes. -/
theorem substitute_eq_self_iff {pat : List α} (hpat : pat ≠ []) (rep s : List α) :
    substitute pat rep s = s ↔ strstr pat s = none ∨ rep = pat := by
  constructor
  · intro h
    cases hs : strstr pat s with
    | none => exact Or.inl rfl
    | some i =>
      have hsplit := strstr_some_split hs
      rw [substitute_of_strstr_some hpat hs] at h
      have heq := List.append_cancel_left (h.trans hsplit)
      obtain ⟨n, hn⟩ := length_substitute hpat rep (s.drop (i + pat.length))
      have hlen := congrArg List.length heq
      simp only [List.length_append] at hlen
      have hmul : (n + 1) * rep.length = (n + 1) * pat.length := by
        rw [Nat.add_one_mul, Nat.add_one_mul]
        omega
      exact Or.inr (List.append_inj heq (Nat.eq_of_mul_eq_mul_left n.succ_pos hmul)).1
  · rintro (h | rfl)
    · exact substitute_of_strstr_none h
    · induction s using occurrence_induction hpat with
      | hnone s hs => exact substitute_of_strstr_none hs
      | hsome s i hs ih =>
        rw [substitute_of_strstr_some hpat hs, ih]
        exact (strstr_some_split hs).symm

theorem substitute_self {pat rep : List α} (hpat : pat ≠ []) : substitute pat rep pat = rep := by
  have h : strstr pat pat = some 0 := by
    cases pat with
    | nil => exact absurd rfl hpat
    | cons a s => simp [strstr, List.isPrefixOf_iff_prefix]
  rw [substitute_of_strstr_some hpat h]
  simp [substitute, substituteFrom]

section Separator

variable (sep : α)

theorem splitOn_cons_self (s : List α) : (sep :: s).splitOn sep = [] :: s.splitOn sep := by
  rw [List.splitOn_cons_eq_if_modifyHead, if_pos (by simp)]

theorem splitOn_cons_ne {a : α} (ha : a ≠ sep) (s : List α) :
    (a :: s).splitOn sep = (s.splitOn sep).modifyHead (List.cons a) := by
  rw [List.splitOn_cons_eq_if_modifyHead, if_neg (by simpa using ha)]

theorem splitOn_append_left {rep : List α} (hrep : sep ∉ rep) (s : List α) :
    (rep ++ s).splitOn sep = (s.splitOn sep).modifyHead (rep ++ ·) := by
  induction rep with
  | nil =>
      obtain ⟨l, ls, hs⟩ := List.exists_cons_of_ne_nil (List.splitOn_ne_nil sep s)
      simp [hs]
  | cons a rep ih =>
      have ha : a ≠ sep := fun h => hrep (h ▸ List.mem_cons_self)
      have hr : sep ∉ rep := fun h => hrep (List.mem_cons_of_mem _ h)
      obtain ⟨l, ls, hs⟩ := List.exists_cons_of_ne_nil (List.splitOn_ne_nil sep s)
      rw [List.cons_append, splitOn_cons_ne sep ha, ih hr, hs]
      simp

/-- A word without the separator begins a string exactly when it begins its first level. -/
theorem isPrefixOf_head_level {pat : List α} (hpat : sep ∉ pat) (s l : List α) (ls : List (List α))
    (hs : s.splitOn sep = l :: ls) : pat.isPrefixOf s = pat.isPrefixOf l := by
  induction pat generalizing s l with
  | nil => simp
  | cons p pat ih =>
      have hp : p ≠ sep := fun h => hpat (h ▸ List.mem_cons_self)
      have hr : sep ∉ pat := fun h => hpat (List.mem_cons_of_mem _ h)
      cases s with
      | nil =>
          rw [List.splitOn_nil] at hs
          simp only [List.cons.injEq] at hs
          rw [← hs.1]
      | cons a s =>
          obtain ⟨k, ks, hk⟩ := List.exists_cons_of_ne_nil (List.splitOn_ne_nil sep s)
          by_cases ha : a = sep
          · subst a
            rw [splitOn_cons_self] at hs
            simp only [List.cons.injEq] at hs
            rw [← hs.1]
            simp [List.isPrefixOf_cons_cons, hp]
          · rw [splitOn_cons_ne sep ha, hk] at hs
            simp only [List.modifyHead_cons, List.cons.injEq] at hs
            rw [← hs.1, List.isPrefixOf_cons_cons, List.isPrefixOf_cons_cons, ih hr s k (hs.2 ▸ hk)]

/-- The scan works level by level. Only the first level can begin inside an occurrence. -/
theorem splitOn_substituteFrom {pat rep : List α} (hne : pat ≠ []) (hpat : sep ∉ pat)
    (hrep : sep ∉ rep) (s : List α) (skip : ℕ) (l : List α) (ls : List (List α))
    (hs : s.splitOn sep = l :: ls) (hskip : skip ≤ l.length) :
    (substituteFrom pat rep skip s).splitOn sep =
      substituteFrom pat rep skip l :: ls.map (substitute pat rep) := by
  induction s generalizing skip l ls with
  | nil =>
      rw [List.splitOn_nil] at hs
      simp only [List.cons.injEq] at hs
      rw [← hs.1, ← hs.2]
      simp [substituteFrom]
  | cons a s ih =>
      obtain ⟨k, ks, hk⟩ := List.exists_cons_of_ne_nil (List.splitOn_ne_nil sep s)
      have hpre := isPrefixOf_head_level sep hpat (a :: s) l ls hs
      by_cases ha : a = sep
      · subst a
        rw [splitOn_cons_self] at hs
        simp only [List.cons.injEq] at hs
        obtain ⟨rfl, rfl⟩ := hs
        obtain rfl : skip = 0 := by simpa using hskip
        -- the separator cannot begin an occurrence, so it is copied and closes the level
        have hnp : ¬ pat.isPrefixOf (sep :: s) = true := by
          rw [hpre]
          cases pat with
          | nil => exact absurd rfl hne
          | cons p pat => simp
        have hcopy : substituteFrom pat rep 0 (sep :: s) = sep :: substituteFrom pat rep 0 s := by
          rw [substituteFrom, if_neg hnp]
        have hrest := ih 0 k ks hk (Nat.zero_le _)
        rw [hcopy, splitOn_cons_self, hrest, hk]
        rfl
      · rw [splitOn_cons_ne sep ha, hk] at hs
        simp only [List.modifyHead_cons, List.cons.injEq] at hs
        obtain ⟨rfl, rfl⟩ := hs
        cases skip with
        | succ skip =>
            rw [substituteFrom, substituteFrom]
            exact ih skip k ks hk (by simpa using hskip)
        | zero =>
            by_cases hp : pat.isPrefixOf (a :: s) = true
            · have hp' : pat.isPrefixOf (a :: k) = true := hpre ▸ hp
              have hlen : pat.length - 1 ≤ k.length := by
                have := (List.isPrefixOf_iff_prefix.mp hp').length_le
                simp only [List.length_cons] at this
                omega
              rw [substituteFrom, if_pos hp, substituteFrom, if_pos hp',
                splitOn_append_left sep hrep, ih _ k ks hk hlen]
              rfl
            · have hp' : ¬ pat.isPrefixOf (a :: k) = true := hpre ▸ hp
              rw [substituteFrom, if_neg hp, substituteFrom, if_neg hp', splitOn_cons_ne sep ha,
                ih 0 k ks hk (Nat.zero_le _)]
              rfl

/-- Substitution of a separator-free word by a separator-free text acts on each level alone. -/
theorem splitOn_substitute {pat rep : List α} (hne : pat ≠ []) (hpat : sep ∉ pat)
    (hrep : sep ∉ rep) (s : List α) :
    (substitute pat rep s).splitOn sep = (s.splitOn sep).map (substitute pat rep) := by
  obtain ⟨l, ls, hs⟩ := List.exists_cons_of_ne_nil (List.splitOn_ne_nil sep s)
  rw [hs, substitute, splitOn_substituteFrom sep hne hpat hrep s 0 l ls hs (Nat.zero_le _)]
  rfl

end Separator

end Substitution
