import Mathlib.Order.Compare
import Mathlib.Order.Nat
import Mathlib.Data.List.Sort
import Popsicle.Foundation.Perbill

/-!
# Data of the staking pallet

The records that `pallet-sequencer-staking` keeps in storage, under the names of
`types.rs` and `delegation_requests.rs`.  Balances, rounds, blocks and counters
are natural numbers: a saturating subtraction is the truncated one, and the BTC
amounts that pass through the pallet never add up to more than the escrow holds,
so no saturating addition of amounts saturates.
-/

namespace Popsicle

open Foundation

/-- The largest `u32`, at which point counters saturate. -/
abbrev u32Max : Nat := 4294967295

/-- An amount backed by or owed to an account. -/
structure Bond (AccountId : Type) where
  owner : AccountId
  amount : Nat
  deriving DecidableEq

namespace Bond

variable {AccountId : Type}

def fromOwner (owner : AccountId) : Bond AccountId := { owner, amount := 0 }

/-- Bonds are compared by owner only. -/
instance [Ord AccountId] : Ord (Bond AccountId) :=
  ⟨fun left right => compare left.owner right.owner⟩

end Bond

/-- The activity status of a sequencer candidate. -/
inductive SequencerStatus where
  | active
  | idle
  | leaving (when : Nat)
  deriving DecidableEq

/-- State of a sequencer at the start of the round for which it is selected. -/
structure SequencerSnapshot (AccountId : Type) where
  bond : Nat
  delegations : List (Bond AccountId)
  total : Nat
  deriving DecidableEq

/-- What is needed to pay the stakers of a round after it has ended. -/
structure DelayedPayout where
  totalStakingReward : Nat
  sequencerCommission : Perbill
  deriving DecidableEq

/-- A pending decrease of a candidate's self bond. -/
structure CandidateBondLessRequest where
  amount : Nat
  whenExecutable : Nat
  deriving DecidableEq

/-- Room left in a list of delegations. -/
inductive CapacityStatus where
  | full
  | empty
  | partlyFull
  deriving DecidableEq

/-- The top or the bottom delegations of a candidate. -/
structure Delegations (AccountId : Type) where
  delegations : List (Bond AccountId)
  total : Nat
  deriving DecidableEq

/-- Everything about a candidate except its two lists of delegations. -/
structure CandidateMetadata where
  bond : Nat
  delegationCount : Nat
  totalCounted : Nat
  lowestTopDelegationAmount : Nat
  highestBottomDelegationAmount : Nat
  lowestBottomDelegationAmount : Nat
  topCapacity : CapacityStatus
  bottomCapacity : CapacityStatus
  request : Option CandidateBondLessRequest
  status : SequencerStatus
  deriving DecidableEq

namespace CandidateMetadata

def new (bond : Nat) : CandidateMetadata where
  bond := bond
  delegationCount := 0
  totalCounted := bond
  lowestTopDelegationAmount := 0
  highestBottomDelegationAmount := 0
  lowestBottomDelegationAmount := 0
  topCapacity := .empty
  bottomCapacity := .empty
  request := none
  status := .active

def isActive (self : CandidateMetadata) : Bool :=
  match self.status with
  | .active => true
  | _ => false

def isLeaving (self : CandidateMetadata) : Bool :=
  match self.status with
  | .leaving _ => true
  | _ => false

def goOffline (self : CandidateMetadata) : CandidateMetadata := { self with status := .idle }

def goOnline (self : CandidateMetadata) : CandidateMetadata := { self with status := .active }

end CandidateMetadata

/-- Whether a new delegation went to the top or to the bottom list. -/
inductive DelegatorAdded where
  | addedToTop (newTotal : Nat)
  | addedToBottom
  deriving DecidableEq

/-- What a scheduled request does to a delegation. -/
inductive DelegationAction where
  | revoke (amount : Nat)
  | decrease (amount : Nat)
  deriving DecidableEq

def DelegationAction.amount : DelegationAction → Nat
  | .revoke amount => amount
  | .decrease amount => amount

/-- A request of a delegator, executable from a round on. -/
structure ScheduledRequest (AccountId : Type) where
  delegator : AccountId
  whenExecutable : Nat
  action : DelegationAction
  deriving DecidableEq

/-- The current round and how it ends. -/
structure RoundInfo where
  current : Nat
  first : Nat
  length : Nat
  snapshotTimePoint : Nat
  deriving DecidableEq

namespace RoundInfo

/-- The value of an unset `Round` storage item. -/
def default : RoundInfo :=
  { current := 1, first := 1, length := 20, snapshotTimePoint := 15 }

def shouldUpdate (self : RoundInfo) (now : Nat) : Bool :=
  now - self.first ≥ self.length

/-- The next round begins.  Its number saturates in the source; here it has no bound. -/
def update (self : RoundInfo) (now : Nat) : RoundInfo :=
  { self with current := self.current + 1, first := now }

def shouldSnapshot (self : RoundInfo) (now : Nat) : Bool :=
  now - self.first = self.snapshotTimePoint

end RoundInfo

/-- Errors of `pallet-sequencer-staking`. -/
inductive Error where
  | delegatorDNE
  | candidateDNE
  | delegationDNE
  | delegatorExists
  | candidateExists
  | candidateBondBelowMin
  | insufficientBalance
  | delegatorBondBelowMin
  | delegationBelowMin
  | alreadyOffline
  | alreadyActive
  | candidateAlreadyLeaving
  | candidateNotLeaving
  | candidateCannotLeaveYet
  | cannotGoOnlineIfLeaving
  | exceedMaxDelegationsPerDelegator
  | alreadyDelegatedCandidate
  | cannotSetBelowMin
  | roundLengthMustBeGreaterThanTotalSelectedSequencers
  | noWritingSameValue
  | tooLowCandidateCountWeightHintJoinCandidates
  | tooLowCandidateCountWeightHintCancelLeaveCandidates
  | tooLowCandidateCountToLeaveCandidates
  | tooLowDelegationCountToDelegate
  | tooLowCandidateDelegationCountToDelegate
  | tooLowCandidateDelegationCountToLeaveCandidates
  | pendingCandidateRequestsDNE
  | pendingCandidateRequestAlreadyExists
  | pendingCandidateRequestNotDueYet
  | pendingDelegationRequestDNE
  | pendingDelegationRequestAlreadyExists
  | pendingDelegationRequestNotDueYet
  | cannotDelegateLessThanOrEqualToLowestBottomWhenFull
  | pendingDelegationRevoke
  | tooLowSequencerCountToNotifyAsInactive
  | cannotBeNotifiedAsInactive
  | candidateLimitReached
  | markingOfflineNotEnabled
  | currentRoundTooLow
  | transferFailed
  deriving DecidableEq

/-- Errors of `pallet-sequencer-grouping`. -/
inductive GroupingError where
  | candidatesNotEnough
  | groupSizeTooLarge
  | groupNumberTooLarge
  | accountNotInGroup
  | tooManyProcessors
  | noProcessors
  deriving DecidableEq

/-- Errors of `pallet-container`. -/
inductive ContainerError where
  | appNotExist
  deriving DecidableEq

/-- Every error a dispatchable can return. -/
inductive DispatchError where
  | staking (reason : Error)
  | grouping (reason : GroupingError)
  | container (reason : ContainerError)
  | badOrigin
  | currency
  deriving DecidableEq

/-- The `expect`, `unwrap` and indexing sites of the modelled code, and
arithmetic overflow in a build with overflow checks. -/
inductive PanicSite where
  | topDelegationsExist
  | bottomDelegationsExist
  | bottomIsNonempty
  | topPop
  | bottomPop
  | bottomRemoveFirst
  | delegatorStateExists
  | decreasingLockCannotFail
  | sequencerAndDelegatorStateConsistent
  | candidateInfoExistenceChecked
  | candidateRemovedInPreviousStep
  | selectedCandidatesHaveSnapshots
  | membersOfCandidateQ
  | subsetOfMaxCandidates
  | genesisBlocksPerRound
  | genesisBalance
  | shuffleSwap
  | groupCandidatesPop
  | groupTryPush
  | processorIndex
  | inuseMapIndex
  | arithmeticOverflow
  deriving DecidableEq

/-- Why pallet code stops. -/
inductive Fault where
  | error (reason : DispatchError)
  | panic (site : PanicSite)
  deriving DecidableEq

/-- An error of the staking pallet. -/
abbrev Fault.staking (reason : Error) : Fault := .error (.staking reason)

end Popsicle
