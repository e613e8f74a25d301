import Mathlib.Data.List.TakeWhile
import Mathlib.Data.Option.Basic

/-!
# Records filled from named values

A list of named values is written into a record from the first to the last. A name belongs to at
most one field of the record, so that in the end each field shows the last value given for it, in
the form in which the field stores it. A strict reader stops at the first name that belongs to no
field, a lenient one passes over it.
-/

namespace KeyedUpdate

/-- How named values are written into a record. `write` has no result for a value that the field
cannot take; `value` is what a field shows and `stored` what a value looks like once it is in. -/
structure Schema (κ φ ν ρ ω : Type*) [DecidableEq φ] where
  field : κ → Option φ
  write : ρ → κ → φ → ν → Option ρ
  value : ρ → φ → ω
  stored : φ → ν → ω
  value_write : ∀ {p q k f v}, field k = some f → write p k f v = some q →
    ∀ g, value q g = if g = f then stored f v else value p g
  ext : ∀ {p q}, (∀ f, value p f = value q f) → p = q

variable {κ φ ν ρ ω : Type*} [DecidableEq φ] {S : Schema κ φ ν ρ ω}
  {p q r : ρ} {params more : List (Option κ × ν)}

namespace Schema

def knows (S : Schema κ φ ν ρ ω) (param : Option κ × ν) : Bool := (param.1.bind S.field).isSome

/-- The strict reader. The flag is false if it stopped at an unknown name; a missing name has no
result. -/
def fill (S : Schema κ φ ν ρ ω) : ρ → List (Option κ × ν) → Option (ρ × Bool)
  | p, [] => some (p, true)
  | _, (none, _) :: _ => none
  | p, (some k, v) :: rest =>
    match S.field k with
    | none => some (p, false)
    | some f => (S.write p k f v).bind (fun q => S.fill q rest)

def fillKnown (S : Schema κ φ ν ρ ω) : ρ → List (Option κ × ν) → Option ρ
  | p, [] => some p
  | _, (none, _) :: _ => none
  | p, (some k, v) :: rest =>
    match S.field k with
    | none => S.fillKnown p rest
    | some f => (S.write p k f v).bind (fun q => S.fillKnown q rest)

def lastGiven (S : Schema κ φ ν ρ ω) (f : φ) : List (Option κ × ν) → Option ν
  | [] => none
  | (k, v) :: rest => (S.lastGiven f rest).or (if k.bind S.field = some f then some v else none)

/-- `q` is `p` with the given values, as `read` reads them, in place of the old ones. -/
def Updated (S : Schema κ φ ν ρ ω) (read : φ → ν → ω) (p : ρ) (params : List (Option κ × ν))
    (q : ρ) : Prop :=
  ∀ f, S.value q f = ((S.lastGiven f params).map (read f)).getD (S.value p f)

def Idle (S : Schema κ φ ν ρ ω) (p : ρ) (params : List (Option κ × ν)) : Prop :=
  ∀ f v, S.lastGiven f params = some v → S.stored f v = S.value p f

theorem lastGiven_append (f : φ) :
    S.lastGiven f (params ++ more) = (S.lastGiven f more).or (S.lastGiven f params) := by
  induction params with
  | nil => simp [lastGiven]
  | cons param params ih =>
    rw [List.cons_append, lastGiven, lastGiven, ih, Option.or_assoc]

theorem updated_nil {read : φ → ν → ω} : S.Updated read p [] p := fun _ => rfl

theorem Updated.trans {read : φ → ν → ω} (h : S.Updated read p params q)
    (h' : S.Updated read q more r) : S.Updated read p (params ++ more) r := by
  intro f
  rw [h' f, h f, lastGiven_append]
  cases S.lastGiven f more <;> simp

theorem updated_write {k : κ} {f : φ} {v : ν} (hk : S.field k = some f)
    (h : S.write p k f v = some q) : S.Updated S.stored p [(some k, v)] q := by
  intro g
  rw [S.value_write hk h g]
  by_cases hg : g = f
  · simp [lastGiven, hk, hg]
  · simp [lastGiven, hk, hg, Ne.symm hg]

/-- The strict reader updates by the values before the first unknown name. -/
theorem fill_spec {ok : Bool} (h : S.fill p params = some (q, ok)) :
    S.Updated S.stored p (params.takeWhile S.knows) q ∧ ok = params.all S.knows := by
  induction params generalizing p with
  | nil =>
    obtain ⟨rfl, rfl⟩ := Prod.mk.inj (Option.some.inj h)
    exact ⟨updated_nil, rfl⟩
  | cons param params ih =>
    obtain ⟨k, v⟩ := param
    cases k with
    | none => cases h
    | some k =>
      rw [fill] at h
      cases hk : S.field k with
      | none =>
        rw [hk] at h
        obtain ⟨rfl, rfl⟩ := Prod.mk.inj (Option.some.inj h)
        have hknows : S.knows (some k, v) = false := by simp [knows, hk]
        rw [List.takeWhile_cons, List.all_cons, hknows]
        exact ⟨updated_nil, rfl⟩
      | some f =>
        rw [hk] at h
        obtain ⟨t, ht, hrest⟩ := Option.bind_eq_some_iff.mp h
        have hknows : S.knows (some k, v) = true := by simp [knows, hk]
        rw [List.takeWhile_cons, List.all_cons, hknows]
        exact ⟨(updated_write hk ht).trans (ih hrest).1, (ih hrest).2⟩

/-- An update that changes nothing is one in which everything is given as it stands. -/
theorem Updated.eq_iff (h : S.Updated S.stored p params q) : q = p ↔ S.Idle p params := by
  constructor
  · rintro rfl f v hv
    have hf := h f
    rw [hv] at hf
    exact hf.symm
  · intro hidle
    apply S.ext
    intro f
    rw [h f]
    cases hv : S.lastGiven f params with
    | none => rfl
    | some v => exact hidle f v hv

/-- An update by what is stored is one by what is read exactly if the two agree on every field. -/
theorem Updated.reads_iff {read : φ → ν → ω} (h : S.Updated S.stored p params q) :
    S.Updated read p params q ↔
      ∀ f v, S.lastGiven f params = some v → S.stored f v = read f v := by
  refine forall_congr' (fun f => ?_)
  rw [h f]
  cases S.lastGiven f params with
  | none => simp
  | some v => simp

end Schema

section Loop

variable {σ ι β : Type*} {step : σ → ι → Option σ} {f : ι → Option β} {P : σ → Option β → Prop}

/-- A loop whose items set a field or keep it leaves what the last item for the field has set. -/
theorem foldlM_last (hset : ∀ {s s' i v}, f i = some v → step s i = some s' → P s' (some v))
    (hkeep : ∀ {s s' i r}, f i = none → step s i = some s' → P s r → P s' r)
    {items : List ι} {s s' : σ} {r : Option β} (h0 : P s r)
    (hrun : items.foldlM step s = some s') : P s' ((items.reverse.findSome? f).or r) := by
  induction items generalizing s r with
  | nil =>
    cases hrun
    exact h0
  | cons i items ih =>
    rw [List.foldlM_cons] at hrun
    obtain ⟨s₁, hstep, hrest⟩ := Option.bind_eq_some_iff.mp hrun
    rw [List.reverse_cons, List.findSome?_append, Option.or_assoc, List.findSome?_singleton]
    cases hf : f i with
    | none => exact ih (hkeep hf hstep h0) hrest
    | some v => exact ih (hset hf hstep) hrest

end Loop

end KeyedUpdate
