import Mathlib.Data.List.Induction

/-!
# Tables of bindings and their histories

A table binds values to keys, and each key belongs to an owner. An event may bind a key of an owner
or clear all that an owner has bound. A state machine whose table follows its events in this way
holds, after any history, exactly the bindings that were made last and not cleared since. Where a
key is only there or not, it is enough that some event added it and none has removed it since.
-/

namespace BindingHistory

section Since

variable {ε σ : Type*}

/-- Some event was of the one kind, and all since were of the other. -/
def Since (A B : ε → Prop) (es : List ε) : Prop :=
  ∃ pre e post, es = pre ++ e :: post ∧ A e ∧ ∀ e' ∈ post, B e'

variable {A B : ε → Prop}

theorem not_since_nil : ¬ Since A B [] := by
  rintro ⟨pre, e, post, hsplit, -⟩
  cases pre <;> cases hsplit

theorem since_concat_iff (es : List ε) (e : ε) :
    Since A B (es ++ [e]) ↔ A e ∨ Since A B es ∧ B e := by
  constructor
  · rintro ⟨pre, x, post, hsplit, hx, hlater⟩
    rcases List.eq_nil_or_concat post with rfl | ⟨post, y, rfl⟩
    · obtain ⟨-, heq⟩ := List.append_inj' hsplit rfl
      rw [(List.cons.inj heq).1]
      exact Or.inl hx
    · rw [List.concat_eq_append, ← List.cons_append, ← List.append_assoc] at hsplit
      obtain ⟨hes, hy⟩ := List.append_inj' hsplit rfl
      obtain rfl : e = y := (List.cons.inj hy).1
      rw [List.concat_eq_append] at hlater
      exact Or.inr ⟨⟨pre, x, post, hes, hx, fun e' he' => hlater e' (List.mem_append_left _ he')⟩,
        hlater e (List.mem_append_right _ List.mem_cons_self)⟩
  · rintro (hx | ⟨⟨pre, x, post, rfl, hx, hlater⟩, he⟩)
    · exact ⟨es, e, [], rfl, hx, fun e' he' => absurd he' List.not_mem_nil⟩
    · refine ⟨pre, x, post ++ [e], ?_, hx, ?_⟩
      · rw [List.append_assoc, List.cons_append]
      · intro e' he'
        rcases List.mem_append.mp he' with h | h
        · exact hlater e' h
        · rw [List.mem_singleton.mp h]
          exact he

/-- What events add and remove is there after a history exactly if it was added and not removed
since. -/
theorem holds_foldl_iff {step : σ → ε → σ} (holds : σ → Prop) {Adds Removes : ε → Prop}
    (hstep : ∀ s e, holds (step s e) ↔ Adds e ∨ holds s ∧ ¬ Removes e) {s : σ} (hs : ¬ holds s)
    (es : List ε) : holds (es.foldl step s) ↔ Since Adds (fun e => ¬ Removes e) es := by
  induction es using List.reverseRecOn with
  | nil => exact iff_of_false hs not_since_nil
  | append_singleton es e ih =>
    rw [List.foldl_append, List.foldl_cons, List.foldl_nil, since_concat_iff, hstep, ih]

def trace (step : σ → ε → σ) : σ → List ε → List (σ × ε)
  | _, [] => []
  | s, e :: es => (s, e) :: trace step (step s e) es

theorem trace_concat (step : σ → ε → σ) (s : σ) (es : List ε) (e : ε) :
    trace step s (es ++ [e]) = trace step s es ++ [(es.foldl step s, e)] := by
  induction es generalizing s with
  | nil => rfl
  | cons e' es ih => exact congrArg (List.cons (s, e')) (ih (step s e'))

/-- A value that some events write and all others leave alone is, after a history, as the last of
these events left it, or as it was if there was none. -/
theorem last_write {V : Type*} (step : σ → ε → σ) (s : σ) (val : σ → V) {W : σ × ε → Prop}
    {Q : σ × ε → V → Prop} {es : List ε}
    (hwrite : ∀ (pre : List ε) e, e ∈ es → W (pre.foldl step s, e) →
      Q (pre.foldl step s, e) (val (step (pre.foldl step s) e)))
    (hkeep : ∀ (pre : List ε) e, e ∈ es → ¬ W (pre.foldl step s, e) →
      val (step (pre.foldl step s) e) = val (pre.foldl step s)) :
    ((∀ q ∈ trace step s es, ¬ W q) ∧ val (es.foldl step s) = val s) ∨
      Since (fun q => W q ∧ Q q (val (es.foldl step s))) (fun q => ¬ W q) (trace step s es) := by
  induction es using List.reverseRecOn with
  | nil => exact Or.inl ⟨fun q hq => absurd hq List.not_mem_nil, rfl⟩
  | append_singleton es e ih =>
    have hnew : e ∈ es ++ [e] := List.mem_append_right _ List.mem_cons_self
    rw [trace_concat, since_concat_iff, List.foldl_append, List.foldl_cons, List.foldl_nil]
    by_cases hw : W (es.foldl step s, e)
    · exact Or.inr (Or.inl ⟨hw, hwrite es e hnew hw⟩)
    · rw [hkeep es e hnew hw]
      have hold := ih (fun pre e' he' => hwrite pre e' (List.mem_append_left _ he'))
        (fun pre e' he' => hkeep pre e' (List.mem_append_left _ he'))
      rcases hold with ⟨hno, hval⟩ | hsince
      · refine Or.inl ⟨fun q hq => ?_, hval⟩
        rcases List.mem_append.mp hq with h | h
        · exact hno q h
        · rw [List.mem_singleton.mp h]
          exact hw
      · exact Or.inr (Or.inr ⟨hsince, hw⟩)

end Since

variable {ε σ P A V : Type*} (Binds : ε → P → A → V → Prop) (Clears : ε → P → Prop)

/-- The last event for a key bound it, and its owner was not cleared since. -/
def LastBinding (es : List ε) (p : P) (a : A) (v : V) : Prop :=
  ∃ pre e post, es = pre ++ e :: post ∧ Binds e p a v ∧
    ∀ e' ∈ post, ¬ Clears e' p ∧ ∀ v', ¬ Binds e' p a v'

structure Tracks (step : σ → ε → σ) (table : σ → P → A → Option V) : Prop where
  bind : ∀ {s e p a v}, Binds e p a v → table (step s e) p a = some v
  clear : ∀ {s e p a}, Clears e p → table (step s e) p a = none
  keep : ∀ {s e p a}, ¬ Clears e p → (∀ v, ¬ Binds e p a v) → table (step s e) p a = table s p a

variable {Binds Clears}

/-- The last binding is made by the newest event, or before it and untouched by it. -/
theorem lastBinding_concat_iff (es : List ε) (e : ε) (p : P) (a : A) (v : V) :
    LastBinding Binds Clears (es ++ [e]) p a v ↔
      Binds e p a v ∨
        LastBinding Binds Clears es p a v ∧ ¬ Clears e p ∧ ∀ v', ¬ Binds e p a v' :=
  since_concat_iff es e

/-- After a history from an empty table, what is bound is what was bound last. -/
theorem table_foldl_eq_some_iff {step : σ → ε → σ} {table : σ → P → A → Option V}
    (h : Tracks Binds Clears step table) {s : σ} {p : P} {a : A} (hs : table s p a = none)
    (es : List ε) (v : V) :
    table (es.foldl step s) p a = some v ↔ LastBinding Binds Clears es p a v := by
  induction es using List.reverseRecOn with
  | nil =>
    rw [List.foldl_nil, hs]
    exact iff_of_false (by rintro ⟨⟩) not_since_nil
  | append_singleton es e ih =>
    rw [List.foldl_append, List.foldl_cons, List.foldl_nil, lastBinding_concat_iff]
    by_cases hbind : ∃ v', Binds e p a v'
    · obtain ⟨v', hv'⟩ := hbind
      rw [h.bind hv', Option.some.injEq]
      constructor
      · rintro rfl
        exact Or.inl hv'
      · rintro (hv | ⟨-, -, hno⟩)
        · exact Option.some.inj ((h.bind (s := s) hv').symm.trans (h.bind hv))
        · exact absurd hv' (hno v')
    · have hno : ∀ v', ¬ Binds e p a v' := fun v' hv' => hbind ⟨v', hv'⟩
      by_cases hclear : Clears e p
      · rw [h.clear hclear]
        apply iff_of_false
        · rintro ⟨⟩
        · rintro (hv | ⟨-, hkeep, -⟩)
          · exact hno v hv
          · exact hkeep hclear
      · rw [h.keep hclear hno, ih]
        constructor
        · intro hlast
          exact Or.inr ⟨hlast, hclear, hno⟩
        · rintro (hv | ⟨hlast, -, -⟩)
          · exact absurd hv (hno v)
          · exact hlast

end BindingHistory
