import Mathlib.Data.List.Forall2
import Mathlib.Data.List.TakeDrop

/-!
# Hierarchical topics and wildcard filters

A topic is a string whose levels are separated by `sep`. In a filter the level `[one]` stands for
any single level and the level `[many]` for any number of remaining levels, the parent included.
An implementation may also keep a filter that begins with a wildcard away from topics that begin
with `dollar`; `IsTopicMatch` covers both habits. The main result says when a filter forces a given
level of every topic it matches.
-/

namespace Wildcard

section Levels

variable {L : Type*} [DecidableEq L] (one many : L)

def matchLevels : List L → List L → Bool
  | [], ts => ts.isEmpty
  | f :: fs, ts =>
      if f = many then true
      else match ts with
        | [] => false
        | t :: ts => (decide (f = one) || decide (f = t)) && matchLevels fs ts

/-- A literal level below no `many` is forced. -/
theorem matchLevels_literal {fs ts : List L} {k : ℕ} {l : L} (h : matchLevels one many fs ts = true)
    (hk : fs[k]? = some l) (hpre : many ∉ fs.take k) (ho : l ≠ one) (hm : l ≠ many) :
    ts[k]? = some l := by
  induction fs generalizing ts k with
  | nil => simp at hk
  | cons f fs ih =>
      cases k with
      | zero =>
          obtain rfl : f = l := by simpa using hk
          cases ts with
          | nil => simp [matchLevels, hm] at h
          | cons t ts =>
              have hft : f = t := by
                simp only [matchLevels, if_neg hm, Bool.and_eq_true, Bool.or_eq_true,
                  decide_eq_true_eq] at h
                exact h.1.resolve_left ho
              simp [hft]
      | succ k =>
          have hf : f ≠ many := fun he => hpre (by simp [he])
          have hrest : many ∉ fs.take k := fun he => hpre (by simp [he])
          cases ts with
          | nil => simp [matchLevels, hf] at h
          | cons t ts =>
              simp only [matchLevels, if_neg hf, Bool.and_eq_true] at h
              simpa using ih h.2 (by simpa using hk) hrest

def Admits (f t : L) : Prop := f = one ∨ f = many ∨ f = t

theorem matchLevels_cons_of_admits {f t : L} {fs ts : List L} (hft : Admits one many f t)
    (h : matchLevels one many fs ts = true) : matchLevels one many (f :: fs) (t :: ts) = true := by
  by_cases hm : f = many
  · simp [matchLevels, hm]
  · have hone : f = one ∨ f = t := by
      rcases hft with h | h | h
      · exact Or.inl h
      · exact absurd h hm
      · exact Or.inr h
    simp [matchLevels, hm, hone, h]

theorem matchLevels_of_admits {fs ts : List L} (h : List.Forall₂ (Admits one many) fs ts) :
    matchLevels one many fs ts = true := by
  induction h with
  | nil => rfl
  | cons hft _ ih => exact matchLevels_cons_of_admits one many hft ih

theorem matchLevels_many {fs ts : List L} (h : List.Forall₂ (Admits one many) fs ts)
    (post rest : List L) : matchLevels one many (fs ++ many :: post) (ts ++ rest) = true := by
  induction h with
  | nil => simp [matchLevels]
  | cons hft _ ih => exact matchLevels_cons_of_admits one many hft ih

/-- A filter read as a topic, with `x` in the place of its wildcards. -/
def sample (x : L) (fs : List L) : List L := fs.map (fun f => if f = one ∨ f = many then x else f)

theorem admits_sample (x : L) (fs : List L) :
    List.Forall₂ (Admits one many) fs (sample one many x fs) := by
  induction fs with
  | nil => exact List.Forall₂.nil
  | cons f fs ih =>
      apply List.Forall₂.cons _ ih
      by_cases h : f = one ∨ f = many
      · rcases h with h | h
        · exact Or.inl h
        · exact Or.inr (Or.inl h)
      · exact Or.inr (Or.inr (by simp [h]))

omit [DecidableEq L] in
theorem admits_set {fs ts : List L} (h : List.Forall₂ (Admits one many) fs ts) {k : ℕ} {l w : L}
    (hk : fs[k]? = some l) (hw : Admits one many l w) :
    List.Forall₂ (Admits one many) fs (ts.set k w) := by
  induction h generalizing k with
  | nil => exact List.Forall₂.nil
  | @cons f t fs ts hft hrest ih =>
      cases k with
      | zero =>
          obtain rfl : f = l := by simpa using hk
          exact List.Forall₂.cons hw hrest
      | succ k => exact List.Forall₂.cons hft (ih (by simpa using hk))

end Levels

section Topics

variable {α : Type*} [DecidableEq α] (sep one many dollar : α)

def levels (s : List α) : List (List α) := s.splitOn sep

def Matches (f t : List α) : Bool := matchLevels [one] [many] (levels sep f) (levels sep t)

def LeadingWildcard (f : List α) : Prop :=
  (levels sep f).head? = some [one] ∨ (levels sep f).head? = some [many]

/-- Wildcard matching, with either treatment of topics that begin with `dollar`. -/
structure IsTopicMatch (M : List α → List α → Bool) : Prop where
  sound : ∀ f t, M f t = true → Matches sep one many f t = true
  complete : ∀ f t, Matches sep one many f t = true →
    ¬ (LeadingWildcard sep one many f ∧ t.head? = some dollar) → M f t = true

theorem not_mem_of_mem_levels {s l : List α} (hl : l ∈ levels sep s) : sep ∉ l := by
  induction s generalizing l with
  | nil =>
      obtain rfl : l = [] := by simpa [levels] using hl
      simp
  | cons a s ih =>
      obtain ⟨k, ks, hk⟩ := List.exists_cons_of_ne_nil (List.splitOn_ne_nil sep s)
      by_cases ha : a = sep
      · rw [levels, List.splitOn_cons_eq_if_modifyHead, if_pos (by simpa using ha)] at hl
        rcases List.mem_cons.mp hl with rfl | hmem
        · simp
        · exact ih hmem
      · rw [levels, List.splitOn_cons_eq_if_modifyHead, if_neg (by simpa using ha), hk] at hl
        rcases List.mem_cons.mp hl with rfl | hmem
        · have hkn : sep ∉ k := ih (by simp [levels, hk])
          simpa using ⟨Ne.symm ha, hkn⟩
        · exact ih (by simp [levels, hk, hmem])

omit [DecidableEq α] in
theorem head?_intercalate_cons (u : α) (w : List α) (ls : List (List α)) :
    ([sep].intercalate ((u :: w) :: ls)).head? = some u := by
  cases ls <;> simp

variable {sep one many dollar}

/-- A list of levels that a filter admits is a topic the filter matches, provided its first level
is an ordinary word wherever the filter begins with a wildcard. -/
theorem IsTopicMatch.of_levels {M : List α → List α → Bool}
    (hM : IsTopicMatch sep one many dollar M) {f : List α} {ts : List (List α)} (hne : ts ≠ [])
    (hsep : ∀ t ∈ ts, sep ∉ t) (hmatch : matchLevels [one] [many] (levels sep f) ts = true)
    (hhead : LeadingWildcard sep one many f → ∃ u, u ≠ dollar ∧ ts.head? = some [u]) :
    ∃ t, M f t = true ∧ levels sep t = ts := by
  have hlev : levels sep ([sep].intercalate ts) = ts := List.splitOn_intercalate sep hsep hne
  refine ⟨[sep].intercalate ts, hM.complete _ _ ?_ ?_, hlev⟩
  · rw [Matches, hlev]
    exact hmatch
  · rintro ⟨hw, hd⟩
    obtain ⟨u, hu, hts⟩ := hhead hw
    obtain ⟨rest, rfl⟩ : ∃ rest, ts = [u] :: rest := by
      cases ts with
      | nil => exact absurd rfl hne
      | cons t rest => exact ⟨rest, by simpa using hts⟩
    rw [head?_intercalate_cons] at hd
    exact hu (Option.some.inj hd)

theorem not_mem_of_mem_sample {f : List α} {w t : List α} (hw : sep ∉ w)
    (ht : t ∈ sample [one] [many] w (levels sep f)) : sep ∉ t := by
  obtain ⟨l, hl, rfl⟩ := List.mem_map.mp ht
  split_ifs
  · exact hw
  · exact not_mem_of_mem_levels sep hl

theorem head?_sample {f : List α} (hf : LeadingWildcard sep one many f) (w : List α) :
    (sample [one] [many] w (levels sep f)).head? = some w := by
  rw [sample, List.head?_map]
  rcases hf with h | h <;> simp [h]

theorem sample_levels_ne_nil (w f : List α) : sample [one] [many] w (levels sep f) ≠ [] := by
  simp [sample, levels]

section Forced

variable {M : List α → List α → Bool} (hM : IsTopicMatch sep one many dollar M) {f : List α} {k : ℕ}
  {l c : List α} (hforce : ∀ t, M f t = true → (levels sep t)[k]? = some c) {x : α}
  (hx : x ≠ sep ∧ x ≠ dollar)

include hM hforce hx

/-- Cutting a topic where the filter says `many` leaves it without the later levels. -/
theorem IsTopicMatch.many_not_mem_take : [many] ∉ (levels sep f).take k := by
  have hxsep : sep ∉ [x] := by simpa using hx.1.symm
  intro hmem
  obtain ⟨pre, post, hsplit⟩ := List.append_of_mem hmem
  have hlev : levels sep f = pre ++ [many] :: (post ++ (levels sep f).drop k) := by
    rw [← List.cons_append, ← List.append_assoc, ← hsplit, List.take_append_drop]
  have hlen : pre.length < k := by
    have h := congrArg List.length hsplit
    simp only [List.length_take, List.length_append, List.length_cons] at h
    omega
  have hsep : ∀ t ∈ sample [one] [many] [x] pre ++ [[x]], sep ∉ t := by
    intro t ht
    rcases List.mem_append.mp ht with ht | ht
    · obtain ⟨w, hw, rfl⟩ := List.mem_map.mp ht
      split_ifs
      · exact hxsep
      · exact not_mem_of_mem_levels sep (s := f) (by rw [hlev]; simp [hw])
    · obtain rfl : t = [x] := by simpa using ht
      exact hxsep
  have hmatch : matchLevels [one] [many] (levels sep f) (sample [one] [many] [x] pre ++ [[x]]) =
      true := by
    rw [hlev]
    exact matchLevels_many _ _ (admits_sample _ _ _ pre) _ _
  have hhead (hf : LeadingWildcard sep one many f) :
      ∃ u, u ≠ dollar ∧ (sample [one] [many] [x] pre ++ [[x]]).head? = some [u] := by
    refine ⟨x, hx.2, ?_⟩
    cases pre with
    | nil => rfl
    | cons p pre =>
        have hp : p = [one] ∨ p = [many] := by
          rw [LeadingWildcard, hlev] at hf
          simpa using hf
        simp [sample, hp]
  obtain ⟨t, hmt, ht⟩ := hM.of_levels (by simp) hsep hmatch hhead
  have hc := hforce t hmt
  rw [ht, List.getElem?_eq_none (by simp [sample]; omega)] at hc
  cases hc

theorem IsTopicMatch.not_wildcard (hk : (levels sep f)[k]? = some l) (hxc : [x] ≠ c) :
    ¬ (l = [one] ∨ l = [many]) := by
  have hxsep : sep ∉ [x] := by simpa using hx.1.symm
  intro hl
  have hsep : ∀ t ∈ (sample [one] [many] [x] (levels sep f)).set k [x], sep ∉ t := by
    intro t ht
    rcases List.mem_or_eq_of_mem_set ht with ht | rfl
    · exact not_mem_of_mem_sample hxsep ht
    · exact hxsep
  have hadmit : Admits [one] [many] l [x] := by
    rcases hl with hl | hl
    · exact Or.inl hl
    · exact Or.inr (Or.inl hl)
  have hhead (hf : LeadingWildcard sep one many f) :
      ∃ u, u ≠ dollar ∧ ((sample [one] [many] [x] (levels sep f)).set k [x]).head? = some [u] := by
    refine ⟨x, hx.2, ?_⟩
    have hh := head?_sample hf [x]
    cases hs : sample [one] [many] [x] (levels sep f) with
    | nil => simp [hs] at hh
    | cons a as =>
        obtain rfl : a = [x] := by simpa [hs] using hh
        cases k <;> simp
  obtain ⟨t, hmt, ht⟩ := hM.of_levels (by simpa using sample_levels_ne_nil [x] f) hsep
    (matchLevels_of_admits _ _ (admits_set _ _ (admits_sample _ _ _ _) hk hadmit)) hhead
  have hc := hforce t hmt
  have hlt : k < (levels sep f).length := (List.getElem?_eq_some_iff.mp hk).1
  rw [ht, List.getElem?_set_self (by simpa [sample] using hlt)] at hc
  exact hxc (Option.some.inj hc)

theorem IsTopicMatch.literal_eq (hk : (levels sep f)[k]? = some l)
    (hl : ¬ (l = [one] ∨ l = [many])) : l = c := by
  have hxsep : sep ∉ [x] := by simpa using hx.1.symm
  obtain ⟨t, hmt, ht⟩ := hM.of_levels (sample_levels_ne_nil [x] f)
    (fun t ht => not_mem_of_mem_sample hxsep ht)
    (matchLevels_of_admits _ _ (admits_sample _ _ _ _))
    (fun hf => ⟨x, hx.2, head?_sample hf [x]⟩)
  have hc := hforce t hmt
  rw [ht, sample, List.getElem?_map, hk, Option.map_some, if_neg hl] at hc
  exact Option.some.inj hc

end Forced

/-- The topics that a filter matches all have the same word at a level exactly when the filter has
that word there, the word is no wildcard, and no earlier level swallows the rest of the topic. -/
theorem IsTopicMatch.forced_level_iff {M : List α → List α → Bool}
    (hM : IsTopicMatch sep one many dollar M) {f : List α} {k : ℕ} {l c : List α}
    (hk : (levels sep f)[k]? = some l) {x y : α} (hxy : x ≠ y) (hx : x ≠ sep ∧ x ≠ dollar)
    (hy : y ≠ sep ∧ y ≠ dollar) :
    (∀ t, M f t = true → (levels sep t)[k]? = some c) ↔
      [many] ∉ (levels sep f).take k ∧ l = c ∧ c ≠ [one] ∧ c ≠ [many] := by
  constructor
  · intro hforce
    have hwild : ¬ (l = [one] ∨ l = [many]) := by
      by_cases hcx : [x] = c
      · have hyc : [y] ≠ c := by
          rw [← hcx]
          simpa using hxy.symm
        exact hM.not_wildcard hforce hy hk hyc
      · exact hM.not_wildcard hforce hx hk hcx
    obtain rfl := hM.literal_eq hforce hx hk hwild
    exact ⟨hM.many_not_mem_take hforce hx, rfl, fun h => hwild (Or.inl h),
      fun h => hwild (Or.inr h)⟩
  · rintro ⟨hpre, rfl, ho, hm⟩ t ht
    exact matchLevels_literal _ _ (hM.sound f t ht) hk hpre ho hm

end Topics

end Wildcard
