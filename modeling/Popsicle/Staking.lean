import Popsicle.Requests

/-!
# Staking operations

The extrinsics of the staking pallet that work on the storage of stakes, from
`lib.rs`.  The current round is an argument of those that read it.
-/

namespace Popsicle

open Foundation Exec Keyed

variable {AccountId Native : Type} [LinearOrder AccountId]

/-! ## Candidates -/

def storePool (candidates : BoundedOrderedSet (Bond AccountId)) :
    StakesM AccountId Native Unit :=
  write fun stakes => { stakes with candidatePool := candidates }

def joinCandidatesInner (config : Config AccountId Native) (acc : AccountId)
    (candidateCount : Nat) : StakesM AccountId Native Unit := do
  let stakes ← read
  ensure (stakes.candidateInfo.get acc = none) (.staking .candidateExists)
  ensure (stakes.delegatorState.get acc = none) (.staking .delegatorExists)
  let candidates := stakes.candidatePool
  ensure (candidateCount ≥ candidates.entries.length)
    (.staking .tooLowCandidateCountWeightHintJoinCandidates)
  let (candidates, maybeInsertedCandidate) ←
    require (candidates.tryInsert config.maxCandidates { owner := acc, amount := 0 })
      (.staking .candidateLimitReached)
  ensure (maybeInsertedCandidate = true) (.staking .candidateExists)
  let lockAmount := config.minCandidateStk
  ensure (config.currency.freeBalance stakes.native acc ≥ lockAmount)
    (.staking .insufficientBalance)
  write fun stakes => { stakes with
    native := config.currency.setLock stakes.native acc lockAmount }
  storeCandidate acc (CandidateMetadata.new 0)
  CandidateMetadata.insertTop acc Delegations.default
  CandidateMetadata.insertBottom acc Delegations.default
  storePool candidates

def scheduleLeaveCandidates (config : Config AccountId Native) (round : RoundInfo)
    (sequencer : AccountId) (candidateCount : Nat) : StakesM AccountId Native Unit := do
  let state ← readCandidate sequencer
  let state ← state.scheduleLeave config round
  let candidates := (← read).candidatePool
  ensure (candidateCount ≥ candidates.entries.length)
    (.staking .tooLowCandidateCountToLeaveCandidates)
  let (candidates, removed) := candidates.remove (Bond.fromOwner sequencer)
  if removed then
    storePool candidates
  storeCandidate sequencer state

def cancelLeaveCandidates (config : Config AccountId Native) (sequencer : AccountId)
    (candidateCount : Nat) : StakesM AccountId Native Unit := do
  let state ← readCandidate sequencer
  ensure (state.isLeaving = true) (.staking .candidateNotLeaving)
  let state := state.goOnline
  let candidates := (← read).candidatePool
  ensure (candidates.entries.length ≤ candidateCount)
    (.staking .tooLowCandidateCountWeightHintCancelLeaveCandidates)
  let (candidates, maybeInsertedCandidate) ←
    require (candidates.tryInsert config.maxCandidates
        { owner := sequencer, amount := state.totalCounted })
      (.staking .candidateLimitReached)
  ensure (maybeInsertedCandidate = true) (.staking .alreadyActive)
  storePool candidates
  storeCandidate sequencer state

def goOfflineInner (sequencer : AccountId) : StakesM AccountId Native Unit := do
  let state ← readCandidate sequencer
  let candidates := (← read).candidatePool
  ensure (state.isActive = true) (.staking .alreadyOffline)
  let state := state.goOffline
  let (candidates, removed) := candidates.remove (Bond.fromOwner sequencer)
  if removed then
    storePool candidates
  storeCandidate sequencer state

def goOnlineInner (config : Config AccountId Native) (sequencer : AccountId) :
    StakesM AccountId Native Unit := do
  let state ← readCandidate sequencer
  let candidates := (← read).candidatePool
  ensure (state.isActive = false) (.staking .alreadyActive)
  ensure (state.isLeaving = false) (.staking .cannotGoOnlineIfLeaving)
  let state := state.goOnline
  let (candidates, maybeInsertedCandidate) ←
    require (candidates.tryInsert config.maxCandidates
        { owner := sequencer, amount := state.totalCounted })
      (.staking .candidateLimitReached)
  ensure (maybeInsertedCandidate = true) (.staking .alreadyActive)
  storePool candidates
  storeCandidate sequencer state

def candidateBondMoreInner (config : Config AccountId Native) (sequencer : AccountId)
    (more : Nat) : StakesM AccountId Native Unit := do
  let state ← readCandidate sequencer
  let state ← state.bondMore config sequencer more
  storeCandidate sequencer state
  if state.isActive then
    updateActive config sequencer state.totalCounted

def scheduleCandidateBondLess (config : Config AccountId Native) (round : RoundInfo)
    (sequencer : AccountId) (less : Nat) : StakesM AccountId Native Unit := do
  let state ← readCandidate sequencer
  let state ← state.scheduleBondLess config round less
  storeCandidate sequencer state

def executeCandidateBondLessInner (config : Config AccountId Native) (round : RoundInfo)
    (candidate : AccountId) : StakesM AccountId Native Unit := do
  let state ← readCandidate candidate
  let state ← state.executeBondLess config round candidate
  storeCandidate candidate state

def cancelCandidateBondLess (sequencer : AccountId) : StakesM AccountId Native Unit := do
  let state ← readCandidate sequencer
  let state ← state.cancelBondLess
  storeCandidate sequencer state

/-! ## Leaving the set of candidates -/

/-- Return the stake of one delegation of a leaving candidate. -/
def returnStake (config : Config AccountId Native) (candidate : AccountId)
    (bond : Bond AccountId) : StakesM AccountId Native Unit := do
  let delegator ← require ((← read).delegatorState.get bond.owner)
    (.panic .sequencerAndDelegatorStateConsistent)
  let (delegator, amount) ← delegator.rmDelegation config candidate
  match amount with
  | some remaining => do
      let delegator ← delegationRemoveRequestWithState candidate bond.owner delegator
      if remaining = 0 then
        removeDelegator bond.owner
      else
        storeDelegator bond.owner delegator
  | none => return ()

/-- Return the stakes of a list of delegations, in order. -/
def returnStakes (config : Config AccountId Native) (candidate : AccountId) :
    List (Bond AccountId) → StakesM AccountId Native Unit
  | [] => pure ()
  | bond :: rest => do
      returnStake config candidate bond
      returnStakes config candidate rest

def executeLeaveCandidatesInner (config : Config AccountId Native) (round : RoundInfo)
    (candidate : AccountId) : StakesM AccountId Native Unit := do
  let state ← readCandidate candidate
  state.canLeave round
  let totalBacking := state.bond
  let topDelegations ←
    CandidateMetadata.readTop candidate (.panic .candidateInfoExistenceChecked)
  write fun stakes => { stakes with topDelegations := stakes.topDelegations.remove candidate }
  returnStakes config candidate topDelegations.delegations
  let totalBacking := totalBacking + topDelegations.total
  let bottomDelegations ←
    CandidateMetadata.readBottom candidate (.panic .candidateInfoExistenceChecked)
  write fun stakes => { stakes with
    bottomDelegations := stakes.bottomDelegations.remove candidate }
  returnStakes config candidate bottomDelegations.delegations
  let totalBacking := totalBacking + bottomDelegations.total
  write fun stakes => { stakes with
    native := config.currency.removeLock stakes.native candidate
    candidateInfo := stakes.candidateInfo.remove candidate
    delegationScheduledRequests := stakes.delegationScheduledRequests.remove candidate
    topDelegations := stakes.topDelegations.remove candidate
    bottomDelegations := stakes.bottomDelegations.remove candidate
    total := stakes.total - totalBacking }

def executeLeaveCandidates (config : Config AccountId Native) (round : RoundInfo)
    (candidate : AccountId) (candidateDelegationCount : Nat) :
    StakesM AccountId Native Unit := do
  let state ← readCandidate candidate
  ensure (state.delegationCount ≤ candidateDelegationCount)
    (.staking .tooLowCandidateDelegationCountToLeaveCandidates)
  executeLeaveCandidatesInner config round candidate

/-! ## Delegating -/

/-- The state of a delegator after a new delegation, if it is allowed. -/
def delegatorStateWith (config : Config AccountId Native) (candidate delegator : AccountId)
    (amount : Nat) (delegationCountHint : Nat) :
    StakesM AccountId Native (Delegator AccountId) := do
  let stakes ← read
  match stakes.delegatorState.get delegator with
  | some state => do
      ensure (delegationCountHint ≥ state.delegations.entries.length)
        (.staking .tooLowDelegationCountToDelegate)
      ensure (state.delegations.entries.length < config.maxDelegationsPerDelegator)
        (.staking .exceedMaxDelegationsPerDelegator)
      let (state, added) := state.addDelegation { owner := candidate, amount }
      ensure (added = true) (.staking .alreadyDelegatedCandidate)
      return state
  | none => do
      ensure (stakes.candidateInfo.get delegator = none) (.staking .candidateExists)
      return Delegator.new delegator candidate amount

def delegateInner (config : Config AccountId Native) (candidate delegator : AccountId)
    (amount : Nat) (candidateDelegationCountHint delegationCountHint : Nat) :
    StakesM AccountId Native Unit := do
  let stakes ← read
  ensure (((stakes.candidateInfo.get candidate).map CandidateMetadata.isActive).getD false = true)
    (.staking .candidateDNE)
  ensure ((← reducibleBalance delegator) ≥ amount) (.staking .insufficientBalance)
  ensure (amount ≥ config.minDelegation) (.staking .delegationBelowMin)
  let delegatorState ← delegatorStateWith config candidate delegator amount delegationCountHint
  let candidateState ← readCandidate candidate
  ensure (candidateDelegationCountHint ≥ candidateState.delegationCount)
    (.staking .tooLowCandidateDelegationCountToDelegate)
  let (candidateState, _, lessTotalStaked) ←
    candidateState.addDelegation config candidate { owner := delegator, amount }
  transferBtc config delegator config.palletAccount amount
  let netTotalIncrease := amount - lessTotalStaked.getD 0
  write fun stakes => { stakes with total := stakes.total + netTotalIncrease }
  storeCandidate candidate candidateState
  storeDelegator delegator delegatorState

/-- Remove empty request lists left behind by candidates that have left. -/
def hotfixRemoveDelegationRequestsExitedCandidates (candidates : List AccountId) :
    StakesM AccountId Native Unit := do
  ensure (candidates.length < 100) (.staking .insufficientBalance)
  let stakes ← read
  ensure (∀ candidate ∈ candidates, stakes.candidateInfo.get candidate = none ∧
    stakes.requests candidate = []) (.staking .candidateNotLeaving)
  write fun stakes => { stakes with
    delegationScheduledRequests :=
      candidates.foldl StorageMap.remove stakes.delegationScheduledRequests }

end Popsicle
