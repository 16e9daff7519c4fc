import Popsicle.Set
import Popsicle.Foundation.Asset
import Popsicle.Foundation.Exec
import Popsicle.Foundation.StorageMap

/-!
# Storage and configuration

The storage items of the staking and grouping pallets, the BTC asset they move,
and the constants of the runtime.  Storage is grouped by what reads it: extrinsics
work on `Stakes`, block initialization on `Rounds` and `Groups`.
-/

namespace Popsicle

open Foundation

variable {AccountId Native : Type}

/-! ## The BTC asset -/

/-- A transfer made by the staking pallet. -/
structure Transfer (AccountId : Type) where
  source : AccountId
  dest : AccountId
  amount : Nat
  deriving DecidableEq

/-- What every account holds of the asset, the transfers the staking pallet has
made, oldest first, and what the asset has burnt of the pallet's own account. -/
structure Ledger (AccountId : Type) where
  balance : AccountId → Nat
  transfers : List (Transfer AccountId)
  burnt : Nat

/-! ## The native currency -/

/-- The native currency, provided by the runtime. -/
structure Currency (AccountId Native : Type) where
  freeBalance : Native → AccountId → Nat
  setLock : Native → AccountId → Nat → Native
  removeLock : Native → AccountId → Native
  transfer : Native → AccountId → AccountId → Nat → (keepAlive : Bool) → Option Native

/-- The order in which storage hands out the keys of a map. -/
structure KeyOrder (AccountId : Type) where
  first : Finset AccountId → Option AccountId
  first_mem : ∀ keys account, first keys = some account → account ∈ keys
  first_none : ∀ keys, first keys = none → keys = ∅

/-- The constants of the runtime. -/
structure Config (AccountId Native : Type) where
  minBlocksPerRound : Nat
  maxOfflineRounds : Nat
  leaveCandidatesDelay : Nat
  candidateBondLessDelay : Nat
  revokeDelegationDelay : Nat
  delegationBondLessDelay : Nat
  rewardPaymentDelay : Nat
  maxTopDelegationsPerCandidate : Nat
  maxBottomDelegationsPerCandidate : Nat
  maxDelegationsPerDelegator : Nat
  minCandidateStk : Nat
  minDelegation : Nat
  roundReward : Nat
  palletAccount : AccountId
  maxCandidates : Nat
  maxGroupSize : Nat
  maxGroupNumber : Nat
  maxRunningApp : Nat
  asset : Asset AccountId
  currency : Currency AccountId Native
  keyOrder : KeyOrder AccountId
  /-- Whether the build panics on arithmetic overflow instead of wrapping. -/
  overflowChecks : Bool

/-! ## Storage -/

/-- Delegator state. -/
structure Delegator (AccountId : Type) where
  id : AccountId
  delegations : OrderedSet (Bond AccountId)
  total : Nat
  lessTotal : Nat
  deriving DecidableEq

/-- The storage items that extrinsics of the staking pallet change. -/
structure Stakes (AccountId Native : Type) where
  delegatorState : StorageMap AccountId (Delegator AccountId)
  candidateInfo : StorageMap AccountId CandidateMetadata
  delegationScheduledRequests : StorageMap AccountId (List (ScheduledRequest AccountId))
  topDelegations : StorageMap AccountId (Delegations AccountId)
  bottomDelegations : StorageMap AccountId (Delegations AccountId)
  total : Nat
  candidatePool : BoundedOrderedSet (Bond AccountId)
  btc : Ledger AccountId
  native : Native

/-- The requests scheduled towards a sequencer; an unset item reads as empty. -/
def Stakes.requests (stakes : Stakes AccountId Native) (sequencer : AccountId) :
    List (ScheduledRequest AccountId) :=
  (stakes.delegationScheduledRequests.get sequencer).getD []

/-- One order of `pay_one_sequencer_reward`: whom it pays for which round. -/
structure RewardOrder (AccountId : Type) where
  round : Nat
  payoutInfo : DelayedPayout
  totalPoints : Nat
  sequencer : AccountId
  points : Nat
  snapshot : SequencerSnapshot AccountId
  payments : List (Bond AccountId)
  deriving DecidableEq

/-- The round events of `on_initialize`. -/
inductive RoundEvent where
  | newRound (startingBlock : Nat) (round : Nat)
  | candidatesSelected (round : Nat)
  deriving DecidableEq

/-- The storage items of rounds, snapshots and payouts, and what the pallet has
ordered and announced so far, oldest first. -/
structure Rounds (AccountId : Type) where
  sequencerCommission : Perbill
  round : RoundInfo
  selectedCandidates : List AccountId
  atStake : Nat → StorageMap AccountId (SequencerSnapshot AccountId)
  delayedPayouts : StorageMap Nat DelayedPayout
  points : Nat → Nat
  awardedPts : Nat → StorageMap AccountId Nat
  enableMarkingOffline : Bool
  orders : List (RewardOrder AccountId)
  events : List RoundEvent

/-- A registered processor with its address and the groups it runs. -/
structure ProcessorInfo (AccountId : Type) where
  account : AccountId
  ipAddress : List Nat
  groups : List Nat
  deriving DecidableEq

/-- The storage items of the grouping pallet. -/
structure Groups (AccountId : Type) where
  groupSize : Nat
  groupNumber : Nat
  groupMembers : List (List AccountId)
  nextRound : Nat × Nat
  processorInfo : List (ProcessorInfo AccountId)
  deriving DecidableEq

/-- The state of the chain as far as the pallets see it. -/
structure State (AccountId Native : Type) where
  stakes : Stakes AccountId Native
  rounds : Rounds AccountId
  groups : Groups AccountId
  blockNumber : Nat
  /-- The first byte of the parent hash. -/
  parentHash : Nat

/-- Pallet code over the storage of stakes. -/
abbrev StakesM (AccountId Native : Type) := Exec (Stakes AccountId Native) Fault

/-- Pallet code over the whole state. -/
abbrev ChainM (AccountId Native : Type) := Exec (State AccountId Native) Fault

/-- Take an `expect`: an error becomes a panic at the given site. -/
def expectOk {σ α : Type} (site : PanicSite) (body : Exec σ Fault α) : Exec σ Fault α :=
  Exec.handle body fun _ => Exec.fail (.panic site)

/-- Drop a returned error, as `let _ =` does; the writes before it stay. -/
def discardError {σ : Type} (body : Exec σ Fault Unit) : Exec σ Fault Unit :=
  Exec.handle body fun fault =>
    match fault with
    | .error _ => pure ()
    | .panic site => Exec.fail (.panic site)

/-! ## Arithmetic of `u32` -/

/-- A result of `u32` arithmetic: kept when it fits, otherwise a panic or the
wrapped number, depending on the build. -/
def u32Result {σ : Type} (overflowChecks : Bool) (exact : Int) : Exec σ Fault Nat :=
  if 0 ≤ exact ∧ exact ≤ u32Max then pure exact.toNat
  else if overflowChecks then Exec.fail (.panic .arithmeticOverflow)
  else pure (exact % (u32Max + 1)).toNat

section Rules

variable {σ : Type} {state : σ} {excuse : Fault → σ → Prop}

theorem ends_u32Result (overflowChecks : Bool) (exact : Int) {post : Nat → σ → Prop}
    (fits : ∀ value, post value state) (overflows : excuse (.panic .arithmeticOverflow) state) :
    (u32Result overflowChecks exact : Exec σ Fault Nat).Ends state post excuse := by
  unfold u32Result
  split
  next => exact fits _
  next =>
    split
    next => exact overflows
    next => exact fits _

/-- A natural number of `u32` arithmetic wraps, or panics in a build that checks. -/
theorem ends_u32Result_nat {checks : Bool} {value : Nat} {post : Nat → σ → Prop} :
    (u32Result checks (value : Nat) : Exec σ Fault Nat).Ends state post excuse ↔
      (¬(checks = true ∧ u32Max < value) → post (value % (u32Max + 1)) state) ∧
        (checks = true ∧ u32Max < value → excuse (.panic .arithmeticOverflow) state) := by
  unfold u32Result
  by_cases fits : value ≤ u32Max
  · have inside : (0 : Int) ≤ (value : Nat) ∧ ((value : Nat) : Int) ≤ (u32Max : Nat) := by
      omega
    rw [if_pos inside]
    simp [Nat.not_lt.mpr fits, Nat.mod_eq_of_lt (Nat.lt_succ_of_le fits)]
  · have outside : ¬((0 : Int) ≤ (value : Nat) ∧ ((value : Nat) : Int) ≤ (u32Max : Nat)) := by
      omega
    have wrapped : (((value : Nat) : Int) % ((u32Max : Nat) + 1)).toNat =
        value % (u32Max + 1) := by
      simp only [u32Max]
      omega
    rw [if_neg outside, wrapped]
    cases checks
    · simp
    · simp [Nat.lt_of_not_le fits]

end Rules

/-- The sum of two `u32`, which does not exceed the largest one. -/
def saturatingAdd (left right : Nat) : Nat := min (left + right) u32Max

/-- Run a body and tell whether it ended without an error. -/
def attempt {σ : Type} (body : Exec σ Fault Unit) : Exec σ Fault Bool :=
  Exec.handle (do body; pure true) fun fault =>
    match fault with
    | .error _ => pure false
    | .panic site => Exec.fail (.panic site)

section Operations

open Exec

variable [DecidableEq AccountId]

/-- The ledger with the balances after a transfer, which is kept in the history. -/
def Ledger.record (btc : Ledger AccountId) (palletAccount source dest : AccountId)
    (amount : Nat) (balance : AccountId → Nat) : Ledger AccountId where
  balance := balance
  transfers := btc.transfers ++ [{ source, dest, amount }]
  burnt := if source = palletAccount then btc.burnt + (btc.balance source - amount - balance source)
    else btc.burnt

/-- The transfer of the asset the pallet asks for. -/
def transferBtc (config : Config AccountId Native) (source dest : AccountId)
    (amount : Nat) : StakesM AccountId Native Unit := do
  let stakes ← read
  let balance ← require (config.asset.transfer stakes.btc.balance source dest amount)
    (.staking .transferFailed)
  write fun stakes => { stakes with
    btc := stakes.btc.record config.palletAccount source dest amount balance }

/-- What an account can spend of its BTC. -/
def reducibleBalance (account : AccountId) : StakesM AccountId Native Nat := do
  let stakes ← read
  return stakes.btc.balance account

end Operations

end Popsicle
