import Mathlib.Data.List.Perm.Basic
import Mathlib.Data.List.Perm.Subperm
import Mathlib.Tactic.SplitIfs

/-!
# Messages that are sent or kept back

Messages are built one after the other. Each is handed over at once, dropped, or put into a queue of
bounded length, from which the oldest is handed over later or given up for a new one when the queue
is full. In every run a message is in exactly one place, and what is given up is the oldest of the
queue. If nothing of a kind is handed over at once while some of that kind wait, the messages of the
kind are handed over in the order in which they were built.
-/

namespace CachedFlow

structure Flow (α : Type*) where
  built : List α
  handed : List α
  waiting : List α
  /-- What was given up, each with what was waiting behind it. -/
  evicted : List (α × List α)
  dropped : List α

def Flow.empty {α : Type*} : Flow α := ⟨[], [], [], [], []⟩

variable {α : Type*}

/-- When a message may be handed over at once, and which may be dropped. -/
structure Policy (α : Type*) where
  direct : Flow α → α → Prop
  drop : α → Prop

inductive Step (cap : ℕ) (P : Policy α) (f : Flow α) : Flow α → Prop
  | direct {x : α} (fresh : x ∉ f.built) (guard : P.direct f x) :
      Step cap P f { f with built := f.built ++ [x], handed := f.handed ++ [x] }
  | drop {x : α} (fresh : x ∉ f.built) (guard : P.drop x) :
      Step cap P f { f with built := f.built ++ [x], dropped := f.dropped ++ [x] }
  | store {x : α} (fresh : x ∉ f.built) :
      Step cap P f { f with built := f.built ++ [x], waiting := f.waiting ++ [x] }
  | replace {x old : α} {rest : List α} (fresh : x ∉ f.built) (head : f.waiting = old :: rest)
      (full : rest.length + 1 = cap) :
      Step cap P f
        { f with
          built := f.built ++ [x], waiting := rest ++ [x], evicted := f.evicted ++ [(old, rest)] }
  | resend {x : α} {rest : List α} (head : f.waiting = x :: rest) :
      Step cap P f { f with handed := f.handed ++ [x], waiting := rest }

/-- Every message is in one place, and whatever was given up was the oldest of a full queue. -/
structure Accounted (cap : ℕ) (f : Flow α) : Prop where
  nodup : f.built.Nodup
  perm : f.built.Perm (f.handed ++ (f.waiting ++ (f.evicted.map Prod.fst ++ f.dropped)))
  waiting : f.waiting.Sublist f.built
  oldest : ∀ e ∈ f.evicted, (e.1 :: e.2).Sublist f.built ∧ e.2.length + 1 = cap

theorem accounted_empty (cap : ℕ) : Accounted cap (Flow.empty : Flow α) :=
  ⟨List.nodup_nil, List.Perm.refl _, List.Sublist.refl _, fun _ he => absurd he List.not_mem_nil⟩

section Step

variable {cap : ℕ} {P : Policy α} {f f' : Flow α}

theorem Accounted.oldest_append (h : Accounted cap f) (x : α) :
    ∀ e ∈ f.evicted, (e.1 :: e.2).Sublist (f.built ++ [x]) ∧ e.2.length + 1 = cap := by
  intro e he
  obtain ⟨hsub, hlen⟩ := h.oldest e he
  exact ⟨hsub.trans (List.sublist_append_left _ _), hlen⟩

theorem Accounted.nodup_append (h : Accounted cap f) {x : α} (fresh : x ∉ f.built) :
    (f.built ++ [x]).Nodup := by
  rw [List.nodup_append]
  refine ⟨h.nodup, List.pairwise_singleton _ x, ?_⟩
  intro a ha b hb
  rw [List.mem_singleton.mp hb]
  rintro rfl
  exact fresh ha

theorem Accounted.step (h : Accounted cap f) (hstep : Step cap P f f') :
    Accounted cap f' := by
  classical
  have hcount := fun a => h.perm.count_eq a
  simp only [List.count_append] at hcount
  cases hstep with
  | @direct x fresh guard | @drop x fresh guard =>
    refine ⟨h.nodup_append fresh, List.perm_iff_count.mpr fun a => ?_,
      h.waiting.trans (List.sublist_append_left _ _), h.oldest_append x⟩
    simp only [List.count_append, hcount a]
    omega
  | @store x fresh =>
    refine ⟨h.nodup_append fresh, List.perm_iff_count.mpr fun a => ?_,
      h.waiting.append (List.Sublist.refl _), h.oldest_append x⟩
    simp only [List.count_append, hcount a]
    omega
  | @replace x old rest fresh head full =>
    have hwaiting := h.waiting
    simp only [head, List.count_cons] at hcount hwaiting
    refine ⟨h.nodup_append fresh, List.perm_iff_count.mpr fun a => ?_,
      ((List.sublist_cons_self old rest).trans hwaiting).append (List.Sublist.refl _), ?_⟩
    · simp only [List.count_append, hcount a, List.map_append, List.map_singleton,
        List.count_singleton]
      omega
    · intro e he
      rcases List.mem_append.mp he with he | he
      · exact h.oldest_append x e he
      · rw [List.mem_singleton.mp he]
        exact ⟨hwaiting.trans (List.sublist_append_left _ _), full⟩
  | @resend x rest head =>
    have hwaiting := h.waiting
    simp only [head, List.count_cons] at hcount hwaiting
    refine ⟨h.nodup, List.perm_iff_count.mpr fun a => ?_,
      (List.sublist_cons_self x rest).trans hwaiting, h.oldest⟩
    simp only [List.count_append, hcount a, List.count_singleton]
    omega

theorem Step.drop_of_mem (hstep : Step cap P f f') (h : ∀ x ∈ f.dropped, P.drop x) :
    ∀ x ∈ f'.dropped, P.drop x := by
  cases hstep with
  | direct | store | replace | resend => exact h
  | drop fresh guard =>
    intro y hy
    rcases List.mem_append.mp hy with hy | hy
    · exact h y hy
    · rwa [List.mem_singleton.mp hy]

end Step

/-- A message that was not dropped is in exactly one of the three places. -/
theorem Accounted.count_eq_one [DecidableEq α] {cap : ℕ} {f : Flow α} (h : Accounted cap f) {x : α}
    (hx : x ∈ f.built) (hkept : x ∉ f.dropped) :
    f.handed.count x + f.waiting.count x + (f.evicted.map Prod.fst).count x = 1 := by
  have hcount := h.perm.count_eq x
  rw [h.nodup.count, if_pos hx] at hcount
  simp only [List.count_append, List.count_eq_zero_of_not_mem hkept] at hcount
  omega

section Order

variable {cap : ℕ} {P : Policy α} {f f' : Flow α} {p : α → Bool}

/-- What was handed over and what waits, of one kind, is in the order in which it was built. -/
def InOrder (p : α → Bool) (f : Flow α) : Prop :=
  ((f.handed ++ f.waiting).filter p).Sublist f.built

def Waits (p : α → Bool) (f : Flow α) (x : α) : Prop := p x = true → f.waiting.filter p = []

theorem inOrder_empty (p : α → Bool) : InOrder p Flow.empty := List.Sublist.refl _

theorem InOrder.step (hP : ∀ f x, P.direct f x → Waits p f x) (h : InOrder p f)
    (hstep : Step cap P f f') : InOrder p f' := by
  unfold InOrder at h ⊢
  rw [List.filter_append] at h
  have hsingle : ∀ x, ([x].filter p).Sublist [x] := fun x => List.filter_sublist
  cases hstep with
  | @direct x fresh guard =>
    cases hp : p x with
    | false => simpa [hp] using h.trans (List.sublist_append_left _ [x])
    | true =>
      have hnone := hP f x guard hp
      rw [hnone, List.append_nil] at h
      simpa [hp, hnone] using h.append (List.Sublist.refl [x])
  | @drop x fresh guard => simpa using h.trans (List.sublist_append_left _ [x])
  | @store x fresh => simpa using h.append (hsingle x)
  | @replace x old rest fresh head full =>
    rw [head] at h
    have hrest : (f.handed.filter p ++ rest.filter p).Sublist f.built :=
      ((List.Sublist.refl _).append ((List.sublist_cons_self old rest).filter p)).trans h
    simpa using hrest.append (hsingle x)
  | @resend x rest head =>
    rw [head] at h
    simpa [List.filter_cons] using h

theorem InOrder.handed (h : InOrder p f) : (f.handed.filter p).Sublist f.built :=
  ((List.sublist_append_left f.handed f.waiting).filter p).trans h

end Order

end CachedFlow
