import Mathlib.Data.Option.Basic

/-!
# Simulation of machines that reply

A machine takes a list of inputs, replies to each and may be undefined; a specification replies to
the same inputs and is total. If related states reply alike and stay related, the machine is defined
on every list of inputs and gives the replies of the specification.
-/

namespace Simulation

variable {σ τ ι ω : Type*}

def run (step : σ → ι → Option (ω × σ)) : σ → List ι → Option (List ω × σ)
  | s, [] => some ([], s)
  | s, i :: is => do
      let (reply, s) ← step s i
      let (replies, s) ← run step s is
      return (reply :: replies, s)

def specRun (spec : τ → ι → ω × τ) : τ → List ι → List ω × τ
  | t, [] => ([], t)
  | t, i :: is =>
      ((spec t i).1 :: (specRun spec (spec t i).2 is).1, (specRun spec (spec t i).2 is).2)

theorem run_eq_specRun {step : σ → ι → Option (ω × σ)} {spec : τ → ι → ω × τ} {R : σ → τ → Prop}
    (hstep : ∀ s t i, R s t → ∃ s', step s i = some ((spec t i).1, s') ∧ R s' (spec t i).2)
    {s : σ} {t : τ} (h : R s t) (is : List ι) :
    ∃ s', run step s is = some ((specRun spec t is).1, s') ∧ R s' (specRun spec t is).2 := by
  induction is generalizing s t with
  | nil => exact ⟨s, rfl, h⟩
  | cons i is ih =>
    obtain ⟨s₁, hs₁, h₁⟩ := hstep s t i h
    obtain ⟨s₂, hs₂, h₂⟩ := ih h₁
    refine ⟨s₂, ?_, h₂⟩
    rw [run, hs₁]
    dsimp only [Option.bind_eq_bind, Option.bind_some]
    rw [hs₂]
    rfl

end Simulation
