import Popsicle.Candidate

/-!
# Delegation requests

`delegation_requests.rs`: a delegator schedules a revoke or a decrease, and anyone
executes it once it is due.
-/

namespace Popsicle

open Foundation Exec Keyed

variable {AccountId Native : Type} [LinearOrder AccountId]

/-- Append a request unless the list is at capacity. -/
def pushRequest (config : Config AccountId Native)
    (scheduledRequests : List (ScheduledRequest AccountId))
    (request : ScheduledRequest AccountId) :
    StakesM AccountId Native (List (ScheduledRequest AccountId)) := do
  ensure (scheduledRequests.length <
      config.maxTopDelegationsPerCandidate + config.maxBottomDelegationsPerCandidate)
    (.staking .exceedMaxDelegationsPerDelegator)
  return scheduledRequests ++ [request]

def storeRequests (sequencer : AccountId)
    (scheduledRequests : List (ScheduledRequest AccountId)) :
    StakesM AccountId Native Unit :=
  write fun stakes => { stakes with
    delegationScheduledRequests :=
      stakes.delegationScheduledRequests.insert sequencer scheduledRequests }

def storeDelegator (delegator : AccountId) (state : Delegator AccountId) :
    StakesM AccountId Native Unit :=
  write fun stakes => { stakes with
    delegatorState := stakes.delegatorState.insert delegator state }

def removeDelegator (delegator : AccountId) : StakesM AccountId Native Unit :=
  write fun stakes => { stakes with
    delegatorState := stakes.delegatorState.remove delegator }

def storeCandidate (candidate : AccountId) (state : CandidateMetadata) :
    StakesM AccountId Native Unit :=
  write fun stakes => { stakes with
    candidateInfo := stakes.candidateInfo.insert candidate state }

def readDelegator (delegator : AccountId) : StakesM AccountId Native (Delegator AccountId) := do
  require ((← read).delegatorState.get delegator) (.staking .delegatorDNE)

def readCandidate (candidate : AccountId) : StakesM AccountId Native CandidateMetadata := do
  require ((← read).candidateInfo.get candidate) (.staking .candidateDNE)

/-- Schedule a revoke for the delegator, towards a given sequencer. -/
def delegationScheduleRevoke (config : Config AccountId Native) (round : RoundInfo)
    (sequencer delegator : AccountId) : StakesM AccountId Native Unit := do
  let state ← readDelegator delegator
  let scheduledRequests := (← read).requests sequencer
  ensure (findRequest scheduledRequests delegator = none)
    (.staking .pendingDelegationRequestAlreadyExists)
  let bondedAmount ← require (state.getBondAmount sequencer) (.staking .delegationDNE)
  let whenExecutable := saturatingAdd round.current config.revokeDelegationDelay
  let scheduledRequests ← pushRequest config scheduledRequests
    { delegator, action := .revoke bondedAmount, whenExecutable }
  let state := { state with lessTotal := state.lessTotal + bondedAmount }
  storeRequests sequencer scheduledRequests
  storeDelegator delegator state

/-- Schedule a decrease for the delegator, towards a given sequencer. -/
def delegationScheduleBondDecrease (config : Config AccountId Native) (round : RoundInfo)
    (sequencer delegator : AccountId) (decreaseAmount : Nat) :
    StakesM AccountId Native Unit := do
  let state ← readDelegator delegator
  let scheduledRequests := (← read).requests sequencer
  ensure (findRequest scheduledRequests delegator = none)
    (.staking .pendingDelegationRequestAlreadyExists)
  let bondedAmount ← require (state.getBondAmount sequencer) (.staking .delegationDNE)
  ensure (bondedAmount > decreaseAmount) (.staking .delegatorBondBelowMin)
  let newAmount := bondedAmount - decreaseAmount
  ensure (newAmount ≥ config.minDelegation) (.staking .delegationBelowMin)
  let netTotal := state.total - state.lessTotal
  let maxSubtractedAmount := netTotal - config.minDelegation
  ensure (decreaseAmount ≤ maxSubtractedAmount) (.staking .delegatorBondBelowMin)
  let whenExecutable := saturatingAdd round.current config.revokeDelegationDelay
  let scheduledRequests ← pushRequest config scheduledRequests
    { delegator, action := .decrease decreaseAmount, whenExecutable }
  let state := { state with lessTotal := state.lessTotal + decreaseAmount }
  storeRequests sequencer scheduledRequests
  storeDelegator delegator state

/-- Cancel the delegator's request towards a given sequencer. -/
def delegationCancelRequest (sequencer delegator : AccountId) :
    StakesM AccountId Native Unit := do
  let state ← readDelegator delegator
  let scheduledRequests := (← read).requests sequencer
  let (_, state, scheduledRequests) ←
    require (cancelRequestWithState delegator state scheduledRequests)
      (.staking .pendingDelegationRequestDNE)
  storeRequests sequencer scheduledRequests
  storeDelegator delegator state

/-- Remove a delegation from the candidate state. -/
def delegatorLeavesCandidate (config : Config AccountId Native)
    (candidate delegator : AccountId) (amount : Nat) :
    StakesM AccountId Native Unit := do
  let state ← readCandidate candidate
  let (state, _) ← state.rmDelegationIfExists config candidate delegator amount
  write fun stakes => { stakes with total := stakes.total - amount }
  storeCandidate candidate state

/-- Execute a due revoke. -/
def executeRevoke (config : Config AccountId Native) (sequencer delegator : AccountId)
    (state : Delegator AccountId) (scheduledRequests : List (ScheduledRequest AccountId))
    (amount : Nat) : StakesM AccountId Native Unit := do
  let leaving : Bool := state.delegations.entries.length = 1
  if ¬leaving then
    ensure (state.total - config.minDelegation ≥ amount) (.staking .delegatorBondBelowMin)
  let scheduledRequests := removeRequest scheduledRequests delegator
  let state := { state with lessTotal := state.lessTotal - amount }
  let (state, _) ← state.rmDelegation config sequencer
  delegatorLeavesCandidate config sequencer delegator amount
  storeRequests sequencer scheduledRequests
  if leaving then
    removeDelegator delegator
  else
    storeDelegator delegator state

/-- Execute a due decrease. -/
def executeDecrease (config : Config AccountId Native) (sequencer delegator : AccountId)
    (state : Delegator AccountId) (scheduledRequests : List (ScheduledRequest AccountId))
    (amount : Nat) : StakesM AccountId Native Unit := do
  let scheduledRequests := removeRequest scheduledRequests delegator
  let state := { state with lessTotal := state.lessTotal - amount }
  let bond ← require (lookup Bond.owner state.delegations.entries sequencer)
    (.staking .delegationDNE)
  ensure (bond.amount > amount) (.staking .delegationBelowMin)
  let amountBefore := bond.amount
  let delegations := adjust Bond.owner state.delegations.entries sequencer fun bond =>
    { bond with amount := bond.amount - amount }
  let state := { state with delegations := ⟨delegations⟩ }
  let sequencerInfo ← readCandidate sequencer
  let state ← state.totalSubIf config amount fun total =>
    ensure (total ≥ config.minDelegation) (.staking .delegationBelowMin)
  let (sequencerInfo, _) ←
    sequencerInfo.decreaseDelegation config sequencer delegator amountBefore amount
  storeCandidate sequencer sequencerInfo
  write fun stakes => { stakes with total := stakes.total - amount }
  storeRequests sequencer scheduledRequests
  storeDelegator delegator state

/-- Execute the delegator's request towards a given sequencer. -/
def delegationExecuteScheduledRequest (config : Config AccountId Native) (round : RoundInfo)
    (sequencer delegator : AccountId) : StakesM AccountId Native Unit := do
  let state ← readDelegator delegator
  let scheduledRequests := (← read).requests sequencer
  let request ← require (findRequest scheduledRequests delegator)
    (.staking .pendingDelegationRequestDNE)
  ensure (request.whenExecutable ≤ round.current) (.staking .pendingDelegationRequestNotDueYet)
  match request.action with
  | .revoke amount =>
      executeRevoke config sequencer delegator state scheduledRequests amount
  | .decrease amount =>
      executeDecrease config sequencer delegator state scheduledRequests amount

/-- Whether a revoke is scheduled for a given delegation. -/
def delegationRequestRevokeExists (scheduledRequests : List (ScheduledRequest AccountId))
    (delegator : AccountId) : Bool :=
  scheduledRequests.any fun request =>
    request.delegator = delegator && match request.action with
      | .revoke _ => true
      | .decrease _ => false

/-- Increase a delegation of a delegator. -/
def Delegator.increaseDelegation (config : Config AccountId Native)
    (self : Delegator AccountId) (candidate : AccountId) (amount : Nat) :
    StakesM AccountId Native Bool := do
  let bond ← require (lookup Bond.owner self.delegations.entries candidate)
    (.staking .delegationDNE)
  let beforeAmount := bond.amount
  let delegations := adjust Bond.owner self.delegations.entries candidate fun bond =>
    { bond with amount := bond.amount + amount }
  let self := { self with delegations := ⟨delegations⟩, total := self.total + amount }
  transferBtc config self.id config.palletAccount amount
  let sequencerState ← readCandidate candidate
  let before := sequencerState.totalCounted
  let (sequencerState, inTop) ←
    sequencerState.increaseDelegation config candidate self.id beforeAmount amount
  let after := sequencerState.totalCounted
  if sequencerState.isActive ∧ before ≠ after then
    updateActive config candidate after
  storeCandidate candidate sequencerState
  write fun stakes => { stakes with total := stakes.total + amount }
  storeDelegator self.id self
  return inTop

def delegationBondMoreWithoutEvent (config : Config AccountId Native)
    (delegator candidate : AccountId) (more : Nat) : StakesM AccountId Native Bool := do
  let state ← readDelegator delegator
  ensure (delegationRequestRevokeExists ((← read).requests candidate) delegator = false)
    (.staking .pendingDelegationRevoke)
  state.increaseDelegation config candidate more

end Popsicle
