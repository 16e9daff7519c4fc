import Popsicle.Foundation.Run

/-!
# Counting along a run

A weight says how much of something a step does.  What is spent along a run is no more than
what is earned and what was saved, if no single step spends more than it earns and takes from
its savings.
-/

namespace Foundation

variable {σ ι : Type}

/-- The sum of a weight over the steps of a run.  An action that is refused ends the run. -/
def tally (step : σ → ι → Option σ) (weight : σ → σ → Nat) : σ → List ι → Nat
  | _, [] => 0
  | state, action :: rest =>
      match step state action with
      | some after => weight state after + tally step weight after rest
      | none => 0

theorem tally_add (step : σ → ι → Option σ) (first second : σ → σ → Nat) (start : σ)
    (actions : List ι) :
    tally step (fun before after => first before after + second before after) start actions =
      tally step first start actions + tally step second start actions := by
  induction actions generalizing start with
  | nil => rfl
  | cons action rest ih =>
      cases taken : step start action with
      | none => simp [tally, taken]
      | some after =>
          simp only [tally, taken, ih after]
          omega

/-- What is spent is at most what is earned and what was saved. -/
theorem tally_le {step : σ → ι → Option σ} {spends earns : σ → σ → Nat} {invariant : σ → Prop}
    (saved : σ → Nat)
    (keeps : ∀ state action after, invariant state → step state action = some after →
      invariant after)
    (pays : ∀ state action after, invariant state → step state action = some after →
      spends state after + saved after ≤ earns state after + saved state)
    {start : σ} (initial : invariant start) (actions : List ι) :
    tally step spends start actions ≤ tally step earns start actions + saved start := by
  induction actions generalizing start with
  | nil => exact Nat.zero_le _
  | cons action rest ih =>
      cases taken : step start action with
      | none => simp [tally, taken]
      | some after =>
          have paid := pays start action after initial taken
          have others := ih (keeps start action after initial taken)
          simp only [tally, taken]
          omega

end Foundation
