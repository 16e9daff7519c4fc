import Popsicle.Rounds
import Popsicle.Foundation.Run
import Mathlib.Data.Finset.Max

/-!
# The runtime

Dispatch of the extrinsics, the genesis build, and the steps of the chain.  FRAME
runs every dispatchable in a storage layer of its own, so an extrinsic that fails
changes nothing; block initialization has no such layer, and a panic there ends
the chain.
-/

namespace Popsicle

open Foundation Exec Keyed

variable {AccountId Native : Type} [LinearOrder AccountId]

/-! ## Extrinsics -/

/-- Who sends an extrinsic. -/
inductive Origin (AccountId : Type) where
  | root
  | signed (who : AccountId)
  | none
  deriving DecidableEq

/-- The extrinsics of the staking and the grouping pallet. -/
inductive Call (AccountId : Type) where
  | chargeRewardAccount (amount : Nat)
  | setSequencerCommission (new : Perbill)
  | setBlocksPerRound (new : Nat)
  | joinCandidates (candidateCount : Nat)
  | scheduleLeaveCandidates (candidateCount : Nat)
  | executeLeaveCandidates (candidate : AccountId) (candidateDelegationCount : Nat)
  | cancelLeaveCandidates (candidateCount : Nat)
  | goOffline
  | goOnline
  | candidateBondMore (more : Nat)
  | scheduleCandidateBondLess (less : Nat)
  | executeCandidateBondLess (candidate : AccountId)
  | cancelCandidateBondLess
  | delegate (candidate : AccountId) (amount : Nat) (candidateDelegationCount : Nat)
      (delegationCount : Nat)
  | scheduleRevokeDelegation (sequencer : AccountId)
  | delegatorBondMore (candidate : AccountId) (more : Nat)
  | scheduleDelegatorBondLess (candidate : AccountId) (less : Nat)
  | executeDelegationRequest (delegator candidate : AccountId)
  | cancelDelegationRequest (candidate : AccountId)
  | hotfixRemoveDelegationRequestsExitedCandidates (candidates : List AccountId)
  | notifyInactiveSequencer (sequencer : AccountId)
  | enableMarkingOffline (value : Bool)
  | forceJoinCandidates (account : AccountId) (candidateCount : Nat)
  | setGroupMetric (groupSize groupNumber : Nat)
  | benchmarkTriggerGroup (candidates : List AccountId) (startingBlock : Nat)
      (roundIndex : Nat)
  | registerProcessor (ipAddress : List Nat)

def ensureSigned {σ : Type} : Origin AccountId → Exec σ Fault AccountId
  | .signed who => pure who
  | _ => fail (.error .badOrigin)

def ensureRoot {σ : Type} : Origin AccountId → Exec σ Fault Unit
  | .root => pure ()
  | _ => fail (.error .badOrigin)

def chargeRewardAccount (config : Config AccountId Native) (acc : AccountId)
    (amount : Nat) : StakesM AccountId Native Unit := do
  let stakes ← read
  let native ← require
    (config.currency.transfer stakes.native acc config.palletAccount amount true)
    (.error .currency)
  write fun stakes => { stakes with native }

def setSequencerCommission (new : Perbill) : ChainM AccountId Native Unit := do
  let old := (← read).rounds.sequencerCommission
  ensure (old ≠ new) (.staking .noWritingSameValue)
  writeRounds fun rounds => { rounds with sequencerCommission := new }

def setBlocksPerRound (config : Config AccountId Native) (new : Nat) :
    ChainM AccountId Native Unit := do
  ensure (new ≥ config.minBlocksPerRound) (.staking .cannotSetBelowMin)
  let state ← read
  ensure (state.rounds.round.length ≠ new) (.staking .noWritingSameValue)
  ensure (new > (← totalSelected config state.groups))
    (.staking .roundLengthMustBeGreaterThanTotalSelectedSequencers)
  writeRounds fun rounds => { rounds with round := { rounds.round with length := new } }

/-- Whether a sequencer was selected for a round and got no points in it. -/
def Rounds.inactiveIn (rounds : Rounds AccountId) (sequencer : AccountId)
    (round : Nat) : Bool :=
  ((rounds.atStake round).get sequencer).isSome && rounds.awarded round sequencer = 0

def notifyInactiveSequencer (config : Config AccountId Native) (origin : Origin AccountId)
    (sequencer : AccountId) : ChainM AccountId Native Unit := do
  let state ← read
  ensure (state.rounds.enableMarkingOffline = true) (.staking .markingOfflineNotEnabled)
  let _ ← ensureSigned origin
  let maxSequencers ← totalSelected config state.groups
  let sequencersLen := state.rounds.selectedCandidates.length
  let twice ← u32Result config.overflowChecks (maxSequencers * 2 : Nat)
  ensure (sequencersLen * 3 > twice) (.staking .tooLowSequencerCountToNotifyAsInactive)
  let current := state.rounds.round.current
  let maxOfflineRounds := config.maxOfflineRounds
  ensure (current > maxOfflineRounds) (.staking .currentRoundTooLow)
  let firstRoundToCheck := current - maxOfflineRounds
  let inactiveCounter := ((List.range' firstRoundToCheck (current - firstRoundToCheck)).filter
    (state.rounds.inactiveIn sequencer)).length
  ensure (inactiveCounter = maxOfflineRounds) (.staking .cannotBeNotifiedAsInactive)
  discardError (onStakes (goOfflineInner sequencer))

/-- The extrinsics that only concern stakes, by their signer. -/
def stakesCall (config : Config AccountId Native) (round : RoundInfo) (who : AccountId) :
    Call AccountId → Option (StakesM AccountId Native Unit)
  | .chargeRewardAccount amount => some (chargeRewardAccount config who amount)
  | .joinCandidates candidateCount => some (joinCandidatesInner config who candidateCount)
  | .scheduleLeaveCandidates candidateCount =>
      some (scheduleLeaveCandidates config round who candidateCount)
  | .executeLeaveCandidates candidate candidateDelegationCount =>
      some (executeLeaveCandidates config round candidate candidateDelegationCount)
  | .cancelLeaveCandidates candidateCount =>
      some (cancelLeaveCandidates config who candidateCount)
  | .goOffline => some (goOfflineInner who)
  | .goOnline => some (goOnlineInner config who)
  | .candidateBondMore more => some (candidateBondMoreInner config who more)
  | .scheduleCandidateBondLess less => some (scheduleCandidateBondLess config round who less)
  | .executeCandidateBondLess candidate =>
      some (executeCandidateBondLessInner config round candidate)
  | .cancelCandidateBondLess => some (cancelCandidateBondLess who)
  | .delegate candidate amount candidateDelegationCount delegationCount =>
      some (delegateInner config candidate who amount candidateDelegationCount delegationCount)
  | .scheduleRevokeDelegation sequencer =>
      some (delegationScheduleRevoke config round sequencer who)
  | .delegatorBondMore candidate more =>
      some (do let _ ← delegationBondMoreWithoutEvent config who candidate more)
  | .scheduleDelegatorBondLess candidate less =>
      some (delegationScheduleBondDecrease config round candidate who less)
  | .executeDelegationRequest delegator candidate =>
      some (delegationExecuteScheduledRequest config round candidate delegator)
  | .cancelDelegationRequest candidate => some (delegationCancelRequest candidate who)
  | .hotfixRemoveDelegationRequestsExitedCandidates candidates =>
      some (hotfixRemoveDelegationRequestsExitedCandidates candidates)
  | _ => none

/-- The remaining extrinsics. -/
def chainCall (config : Config AccountId Native) (origin : Origin AccountId) :
    Call AccountId → ChainM AccountId Native Unit
  | .setSequencerCommission new => do
      ensureRoot origin
      setSequencerCommission new
  | .setBlocksPerRound new => do
      ensureRoot origin
      setBlocksPerRound config new
  | .notifyInactiveSequencer sequencer => notifyInactiveSequencer config origin sequencer
  | .enableMarkingOffline value => do
      ensureRoot origin
      writeRounds fun rounds => { rounds with enableMarkingOffline := value }
  | .forceJoinCandidates account candidateCount => do
      ensureRoot origin
      onStakes (joinCandidatesInner config account candidateCount)
  | .setGroupMetric groupSize groupNumber => do
      ensureRoot origin
      onGroups (setGroupMetric config groupSize groupNumber)
  | .benchmarkTriggerGroup candidates startingBlock roundIndex => do
      ensureRoot origin
      let state ← read
      discardError (onGroups
        (triggerGroup config state.parentHash candidates startingBlock roundIndex))
  | .registerProcessor ipAddress => do
      let who ← ensureSigned origin
      onGroups (registerProcessor config who ipAddress)
  | call => do
      let who ← ensureSigned origin
      let state ← read
      match stakesCall config state.rounds.round who call with
      | some body => onStakes body
      | none => return ()

/-- Dispatch an extrinsic in its own storage layer. -/
def dispatch (config : Config AccountId Native) (origin : Origin AccountId)
    (call : Call AccountId) : ChainM AccountId Native Unit :=
  transactional (chainCall config origin call)

/-! ## Genesis -/

/-- What the chain starts from. -/
structure ChainSpec (AccountId Native : Type) where
  candidates : List AccountId
  delegations : List (AccountId × AccountId × Nat)
  sequencerCommission : Perbill
  blocksPerRound : Nat
  groupSize : Nat
  groupNumber : Nat
  /-- Whether the grouping pallet is built before the staking pallet. -/
  groupingFirst : Bool
  btc : AccountId → Nat
  native : Native

namespace ChainSpec

/-- Storage before the staking pallet is built. -/
def initial (spec : ChainSpec AccountId Native) : State AccountId Native where
  stakes :=
    { delegatorState := .empty
      candidateInfo := .empty
      delegationScheduledRequests := .empty
      topDelegations := .empty
      bottomDelegations := .empty
      total := 0
      candidatePool := ⟨[]⟩
      btc := { balance := spec.btc, transfers := [], burnt := 0 }
      native := spec.native }
  rounds :=
    { sequencerCommission := .zero
      round := .default
      selectedCandidates := []
      atStake := fun _ => .empty
      delayedPayouts := .empty
      points := fun _ => 0
      awardedPts := fun _ => .empty
      enableMarkingOffline := false
      orders := []
      events := [] }
  groups :=
    { groupSize := if spec.groupingFirst then spec.groupSize else 0
      groupNumber := if spec.groupingFirst then spec.groupNumber else 0
      groupMembers := []
      nextRound := (0, 0)
      processorInfo := [] }
  blockNumber := 0
  parentHash := 0

end ChainSpec

/-- Register the candidates of the genesis configuration. -/
def buildCandidates (config : Config AccountId Native) :
    List AccountId → Nat → StakesM AccountId Native Unit
  | [], _ => pure ()
  | candidate :: rest, candidateCount => do
      let stakes ← read
      ensure (config.currency.freeBalance stakes.native candidate ≥ config.minCandidateStk)
        (.panic .genesisBalance)
      let joined ← attempt (transactional (joinCandidatesInner config candidate candidateCount))
      buildCandidates config rest (if joined then candidateCount + 1 else candidateCount)

/-- Make the delegations of the genesis configuration. -/
def buildDelegations (config : Config AccountId Native) :
    List (AccountId × AccountId × Nat) → (AccountId → Nat) → (AccountId → Nat) →
      StakesM AccountId Native Unit
  | [], _, _ => pure ()
  | (delegator, target, balance) :: rest, colDelegatorCount, delDelegationCount => do
      ensure ((← reducibleBalance delegator) ≥ balance) (.panic .genesisBalance)
      let delegated ← attempt (transactional (delegateInner config target delegator balance
        (colDelegatorCount target) (delDelegationCount delegator)))
      if delegated then
        buildDelegations config rest
          (Function.update colDelegatorCount target (colDelegatorCount target + 1))
          (Function.update delDelegationCount delegator (delDelegationCount delegator + 1))
      else buildDelegations config rest colDelegatorCount delDelegationCount

/-- Build the staking pallet. -/
def buildGenesis (config : Config AccountId Native) (spec : ChainSpec AccountId Native) :
    ChainM AccountId Native Unit := do
  ensure (spec.blocksPerRound > 0) (.panic .genesisBlocksPerRound)
  onStakes (buildCandidates config spec.candidates 0)
  onStakes (buildDelegations config spec.delegations (fun _ => 0) fun _ => 0)
  writeRounds fun rounds => { rounds with sequencerCommission := spec.sequencerCommission }
  selectTopCandidates config 1
  let tripled ← u32Result config.overflowChecks (spec.blocksPerRound * 3 : Nat)
  let snapshotTimePoint := tripled / 4
  writeRounds fun rounds => { rounds with
    round := { current := 1, first := 0, length := spec.blocksPerRound, snapshotTimePoint }
    events := rounds.events ++ [.newRound 0 1] }

/-- The state the chain starts from, unless building it panics. -/
def genesis (config : Config AccountId Native) (spec : ChainSpec AccountId Native) :
    Option (State AccountId Native) :=
  match buildGenesis config spec spec.initial with
  | (.ok _, state) => some { state with
      groups := { state.groups with
        groupSize := spec.groupSize, groupNumber := spec.groupNumber } }
  | (.error _, _) => none

/-! ## Steps -/

/-- What can happen to the chain. -/
inductive Action (AccountId Native : Type) where
  | extrinsic (origin : Origin AccountId) (call : Call AccountId)
  /-- Another pallet awards points for authored blocks. -/
  | awardPoints (sequencer : AccountId) (points : Nat)
  /-- An account moves BTC of its own. -/
  | moveBtc (source dest : AccountId) (amount : Nat)
  /-- The native currency changes. -/
  | changeNative (native : Native)
  /-- The next block is initialized. -/
  | nextBlock (parentHash : Nat)

/-- The state after an extrinsic; one that fails changes nothing. -/
def applyExtrinsic (config : Config AccountId Native) (state : State AccountId Native)
    (origin : Origin AccountId) (call : Call AccountId) : State AccountId Native :=
  (dispatch config origin call state).2

/-- The state the next block is initialized in. -/
def enterBlock (state : State AccountId Native) (parentHash : Nat) : State AccountId Native :=
  { state with blockNumber := state.blockNumber + 1, parentHash }

/-- One step of the chain.  Nothing happens between genesis and the first block,
nobody signs for the account of the pallet, which has no key, and a panic while a
block is initialized leaves no next state. -/
def step (config : Config AccountId Native) (state : State AccountId Native) :
    Action AccountId Native → Option (State AccountId Native)
  | .nextBlock parentHash =>
      match onInitialize config (state.blockNumber + 1) (enterBlock state parentHash) with
      | (.ok _, after) => some after
      | (.error _, _) => none
  | .extrinsic origin call =>
      if state.blockNumber = 0 ∨ origin = .signed config.palletAccount then none
      else some (applyExtrinsic config state origin call)
  | .awardPoints sequencer points =>
      if state.blockNumber = 0 then none
      else some { state with rounds := awardPointsToSequencer sequencer points state.rounds }
  | .moveBtc source dest amount =>
      if state.blockNumber = 0 ∨ source = config.palletAccount then none
      else (config.asset.transfer state.stakes.btc.balance source dest amount).map
        fun balance => { state with
          stakes := { state.stakes with btc := { state.stakes.btc with balance } } }
  | .changeNative native =>
      if state.blockNumber = 0 then none
      else some { state with stakes := { state.stakes with native } }

/-! ## The mock runtime -/

/-- A plain native currency with an existential deposit of one. -/
def mockCurrency : Currency Nat (Nat → Nat) where
  freeBalance native account := native account
  setLock native _ _ := native
  removeLock native _ := native
  transfer native source dest amount _ := Asset.plain.transfer native source dest amount

/-- Keys in increasing order. -/
def increasingKeys : KeyOrder Nat where
  first keys := if nonempty : keys.Nonempty then some (keys.min' nonempty) else none
  first_mem keys account found := by
    split at found
    next nonempty =>
      cases found
      exact keys.min'_mem nonempty
    next => cases found
  first_none keys found := by
    split at found
    next => cases found
    next isEmpty => exact Finset.not_nonempty_iff_eq_empty.mp isEmpty

/-- The constants of `mock.rs`, with account `0` as the account of the pallet. -/
def mockRuntime : Config Nat (Nat → Nat) where
  minBlocksPerRound := 3
  maxOfflineRounds := 1
  leaveCandidatesDelay := 2
  candidateBondLessDelay := 2
  revokeDelegationDelay := 2
  delegationBondLessDelay := 2
  rewardPaymentDelay := 2
  maxTopDelegationsPerCandidate := 4
  maxBottomDelegationsPerCandidate := 4
  maxDelegationsPerDelegator := 4
  minCandidateStk := 10
  minDelegation := 3
  roundReward := 1000000000000
  palletAccount := 0
  maxCandidates := 200
  maxGroupSize := 5
  maxGroupNumber := 10
  maxRunningApp := 20
  asset := .withMinimum 1
  currency := mockCurrency
  keyOrder := increasingKeys
  overflowChecks := true

theorem mock_hasMinimum : mockRuntime.asset.HasMinimum 1 := Asset.withMinimum_hasMinimum 1

/-- The mock runtime with a plain ledger. -/
def plainRuntime : Config Nat (Nat → Nat) := { mockRuntime with asset := .plain }

theorem plainRuntime_isPlain : plainRuntime.asset.IsPlain := Asset.plain_isPlain

/-- A genesis of `mock.rs` in which every account holds 1000 of both assets. -/
def mockGenesis (candidates : List Nat) (delegations : List (Nat × Nat × Nat)) :
    ChainSpec Nat (Nat → Nat) where
  candidates := candidates
  delegations := delegations
  sequencerCommission := ⟨200000000, by decide⟩
  blocksPerRound := 5
  groupSize := 5
  groupNumber := 1
  groupingFirst := true
  btc := fun account => if account = 0 then 0 else 1000
  native := fun _ => 1000

end Popsicle
