import Mathlib.Logic.Basic
import Mathlib.Tactic.Common

/-!
# Fungible assets

An asset decides which transfers it accepts and what they leave everybody.  A plain
ledger accepts what the payer holds.  An asset with a minimum balance knows no smaller
account: it cannot come to be, and what a payer would be left with below the minimum
is burnt.
-/

namespace Foundation

/-- An asset: the balances after a transfer that it accepts. -/
structure Asset (AccountId : Type) where
  transfer : (AccountId → Nat) → AccountId → AccountId → Nat → Option (AccountId → Nat)

namespace Asset

variable {AccountId : Type} [DecidableEq AccountId]

/-- The balances after an amount has moved, where `rest` is what a payer keeps. -/
def moved (rest : Nat → Nat → Nat) (balance : AccountId → Nat) (source dest : AccountId)
    (amount : Nat) : AccountId → Nat := fun account =>
  if source = dest then balance account
  else if account = source then rest (balance account) amount
  else if account = dest then balance account + amount
  else balance account

/-- What a payer keeps if rests below the minimum balance are burnt. -/
def restAbove (minBalance held amount : Nat) : Nat :=
  if 0 < amount ∧ held - amount < minBalance then 0 else held - amount

/-- A ledger without a minimum balance. -/
def plain : Asset AccountId where
  transfer balance source dest amount :=
    if amount ≤ balance source then some (moved (· - ·) balance source dest amount) else none

/-- An asset with a minimum balance. -/
def withMinimum (minBalance : Nat) : Asset AccountId where
  transfer balance source dest amount :=
    if amount ≤ balance source ∧ (minBalance ≤ amount ∨ 0 < balance dest) then
      some (moved (restAbove minBalance) balance source dest amount)
    else none

/-- The asset accepts a transfer. -/
def Accepts (asset : Asset AccountId) (balance : AccountId → Nat) (source dest : AccountId)
    (amount : Nat) : Prop :=
  (asset.transfer balance source dest amount).isSome = true

instance (asset : Asset AccountId) (balance : AccountId → Nat) (source dest : AccountId)
    (amount : Nat) : Decidable (asset.Accepts balance source dest amount) :=
  inferInstanceAs (Decidable (_ = true))

/-- The balances after a transfer; they only matter if it is accepted. -/
def after (asset : Asset AccountId) (balance : AccountId → Nat) (source dest : AccountId)
    (amount : Nat) : AccountId → Nat :=
  (asset.transfer balance source dest amount).getD (moved (· - ·) balance source dest amount)

/-! ## What can be expected of an asset -/

/-- An accepted transfer gives the receiver the amount and only takes from the payer. -/
def Credits (asset : Asset AccountId) : Prop :=
  ∀ ⦃balance source dest amount balance'⦄,
    asset.transfer balance source dest amount = some balance' →
      ∀ account, account ≠ source →
        balance' account = if account = dest then balance account + amount else balance account

/-- An accepted transfer moves an amount that the payer holds. -/
def Moves (asset : Asset AccountId) (rest : Nat → Nat → Nat) : Prop :=
  ∀ ⦃balance source dest amount balance'⦄,
    asset.transfer balance source dest amount = some balance' →
      amount ≤ balance source ∧ balance' = moved rest balance source dest amount

/-- An accepted transfer moves exactly the amount. -/
def Exact (asset : Asset AccountId) : Prop :=
  asset.Moves (· - ·)

/-- The asset moves exactly what a payer holds, to anybody. -/
structure IsPlain (asset : Asset AccountId) : Prop where
  exact : asset.Exact
  accepts : ∀ balance source dest amount, amount ≤ balance source →
    asset.Accepts balance source dest amount

/-- The asset moves exactly what a payer holds, to anybody, unless it is nothing. -/
structure IsLedger (asset : Asset AccountId) : Prop where
  exact : asset.Exact
  accepts : ∀ balance source dest amount, 0 < amount → amount ≤ balance source →
    asset.Accepts balance source dest amount

/-- The asset has a minimum balance. -/
structure HasMinimum (asset : Asset AccountId) (minBalance : Nat) : Prop where
  moves : asset.Moves (restAbove minBalance)
  accepts : ∀ balance source dest amount, asset.Accepts balance source dest amount ↔
    amount ≤ balance source ∧ (minBalance ≤ amount ∨ 0 < balance dest)

variable {asset : Asset AccountId} {balance : AccountId → Nat} {source dest account : AccountId}
  {amount : Nat}

theorem moved_of_ne (rest : Nat → Nat → Nat) (different : account ≠ source) :
    moved rest balance source dest amount account =
      if account = dest then balance account + amount else balance account := by
  by_cases equal : source = dest
  · subst equal
    simp [moved, different]
  · simp [moved, equal, different]

theorem Moves.credits {rest : Nat → Nat → Nat} (moves : asset.Moves rest) : asset.Credits := by
  intro balance source dest amount balance' accepted account different
  rw [(moves accepted).2, moved_of_ne rest different]

theorem Exact.credits (exact : asset.Exact) : asset.Credits := Moves.credits exact

theorem Exact.after_eq (exact : asset.Exact) :
    asset.after balance source dest amount = moved (· - ·) balance source dest amount := by
  unfold after
  cases accepted : asset.transfer balance source dest amount with
  | none => rfl
  | some balance' => rw [Option.getD_some, (exact accepted).2]

theorem Credits.after_of_ne (credits : asset.Credits) (different : account ≠ source) :
    asset.after balance source dest amount account =
      if account = dest then balance account + amount else balance account := by
  unfold after
  cases accepted : asset.transfer balance source dest amount with
  | none => exact moved_of_ne _ different
  | some balance' => exact credits accepted account different

theorem Exact.le_of_accepts (exact : asset.Exact)
    (accepts : asset.Accepts balance source dest amount) : amount ≤ balance source := by
  obtain ⟨balance', accepted⟩ := Option.isSome_iff_exists.mp accepts
  exact (exact accepted).1

/-! ## Plain ledgers and minimum balances -/

theorem plain_isPlain : (plain : Asset AccountId).IsPlain where
  exact := by
    intro balance source dest amount balance' accepted
    simp only [plain, Option.ite_none_right_eq_some, Option.some.injEq] at accepted
    exact ⟨accepted.1, accepted.2.symm⟩
  accepts balance source dest amount held := by
    simp [Accepts, plain, held]

theorem withMinimum_hasMinimum (minBalance : Nat) :
    (withMinimum minBalance : Asset AccountId).HasMinimum minBalance where
  moves := by
    intro balance source dest amount balance' accepted
    simp only [withMinimum, Option.ite_none_right_eq_some, Option.some.injEq] at accepted
    exact ⟨accepted.1.1, accepted.2.symm⟩
  accepts balance source dest amount := by
    simp [Accepts, withMinimum]

theorem HasMinimum.exact (hasMinimum : asset.HasMinimum 1) : asset.Exact := by
  intro balance source dest amount balance' accepted
  obtain ⟨held, rfl⟩ := hasMinimum.moves accepted
  refine ⟨held, ?_⟩
  have same : restAbove 1 = (· - ·) := by
    funext held amount
    unfold restAbove
    split <;> omega
  rw [same]

theorem HasMinimum.isLedger (hasMinimum : asset.HasMinimum 1) : asset.IsLedger where
  exact := hasMinimum.exact
  accepts balance source dest amount positive held :=
    (hasMinimum.accepts balance source dest amount).mpr ⟨held, .inl positive⟩

end Asset

end Foundation
