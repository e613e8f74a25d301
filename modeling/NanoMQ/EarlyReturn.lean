import Mathlib.Logic.Basic

/-!
# Function bodies with early returns

A C function body is a sequence of steps over a state, any of which may return. A `Body` gives the
state it leaves and the value, if it has returned, and `andThen` puts one step behind another. What
every step keeps is kept by the whole, whether it returns early or falls through.
-/

namespace EarlyReturn

variable {σ ρ : Type*}

abbrev Body (σ ρ : Type*) := σ → Option ρ × σ

def andThen (f g : Body σ ρ) : Body σ ρ := fun s =>
  match f s with
  | (some r, s') => (some r, s')
  | (none, s') => g s'

theorem andThen_of_go {f g : Body σ ρ} {s s' : σ} (h : f s = (none, s')) :
    andThen f g s = g s' := by
  rw [andThen, h]

theorem andThen_of_return {f g : Body σ ρ} {s s' : σ} {r : ρ} (h : f s = (some r, s')) :
    andThen f g s = (some r, s') := by
  rw [andThen, h]

theorem andThen_cases {f g : Body σ ρ} {s t : σ} {o : Option ρ} (h : andThen f g s = (o, t)) :
    (∃ r, o = some r ∧ f s = (some r, t)) ∨ ∃ s', f s = (none, s') ∧ g s' = (o, t) := by
  rcases hf : f s with ⟨_ | r, s'⟩
  · rw [andThen_of_go hf] at h
    exact Or.inr ⟨s', rfl, h⟩
  · rw [andThen_of_return hf, Prod.mk.injEq] at h
    obtain ⟨rfl, rfl⟩ := h
    exact Or.inl ⟨r, rfl, rfl⟩

theorem andThen_rel {R : σ → σ → Prop} (htrans : ∀ {a b c}, R a b → R b c → R a c)
    {f g : Body σ ρ} (hf : ∀ s, R s (f s).2) (hg : ∀ s, R s (g s).2) (s : σ) :
    R s (andThen f g s).2 := by
  rcases hfs : f s with ⟨_ | r, s'⟩
  · have h := hf s
    rw [hfs] at h
    rw [andThen_of_go hfs]
    exact htrans h (hg s')
  · have h := hf s
    rw [hfs] at h
    rwa [andThen_of_return hfs]

/-- From related states the body returns the same value, if any, and leaves related states. -/
def Respects (R : σ → σ → Prop) (f : Body σ ρ) : Prop :=
  ∀ {s s'}, R s s' → (f s').1 = (f s).1 ∧ R (f s).2 (f s').2

theorem andThen_respects {R : σ → σ → Prop} {f g : Body σ ρ} (hf : Respects R f)
    (hg : Respects R g) : Respects R (andThen f g) := by
  intro s s' hs
  obtain ⟨hret, hrel⟩ := hf hs
  rcases hfs : f s with ⟨_ | r, t⟩ <;> rcases hfs' : f s' with ⟨o', t'⟩ <;>
    rw [hfs, hfs'] at hret hrel <;> obtain rfl : o' = _ := hret
  · rw [andThen_of_go hfs, andThen_of_go hfs']
    exact hg hrel
  · rw [andThen_of_return hfs, andThen_of_return hfs']
    exact ⟨rfl, hrel⟩

end EarlyReturn
