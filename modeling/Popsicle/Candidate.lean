import Popsicle.Delegator

/-!
# Candidates

The operations of `CandidateMetadata` in `types.rs`.  A method that changes its
receiver answers the changed metadata; the caller stores it.
-/

namespace Popsicle

open Foundation Exec Keyed

variable {AccountId Native : Type} [LinearOrder AccountId]

/-- Replace the pool entry of an active candidate. -/
def updateActive (config : Config AccountId Native) (candidate : AccountId)
    (total : Nat) : StakesM AccountId Native Unit := do
  let stakes ← read
  let (candidates, _) := stakes.candidatePool.remove (Bond.fromOwner candidate)
  let (candidates, _) ←
    require (candidates.tryInsert config.maxCandidates { owner := candidate, amount := total })
      (.panic .candidateRemovedInPreviousStep)
  write fun stakes => { stakes with candidatePool := candidates }

namespace CandidateMetadata

/-! ## Leaving -/

def scheduleLeave (config : Config AccountId Native) (round : RoundInfo)
    (self : CandidateMetadata) : StakesM AccountId Native CandidateMetadata := do
  ensure (self.isLeaving = false) (.staking .candidateAlreadyLeaving)
  let when ← u32Result config.overflowChecks (round.current + config.leaveCandidatesDelay : Nat)
  return { self with status := .leaving when }

def canLeave (round : RoundInfo) (self : CandidateMetadata) :
    StakesM AccountId Native Unit :=
  match self.status with
  | .leaving when => ensure (round.current ≥ when) (.staking .candidateCannotLeaveYet)
  | _ => fail (.staking .candidateNotLeaving)

/-! ## Self bond -/

def bondMore (config : Config AccountId Native) (self : CandidateMetadata) (who : AccountId)
    (more : Nat) : StakesM AccountId Native CandidateMetadata := do
  ensure ((← reducibleBalance who) ≥ more) (.staking .insufficientBalance)
  write fun stakes => { stakes with total := stakes.total + more }
  let self := { self with bond := self.bond + more }
  transferBtc config who config.palletAccount more
  return { self with totalCounted := self.totalCounted + more }

def bondLess (config : Config AccountId Native) (self : CandidateMetadata) (who : AccountId)
    (amount : Nat) : StakesM AccountId Native CandidateMetadata := do
  write fun stakes => { stakes with total := stakes.total - amount }
  let self := { self with bond := self.bond - amount }
  transferBtc config config.palletAccount who amount
  let self := { self with totalCounted := self.totalCounted - amount }
  if self.isActive then
    updateActive config who self.totalCounted
  return self

/-- Schedule a decrease of the self bond. -/
def scheduleBondLess (config : Config AccountId Native) (round : RoundInfo)
    (self : CandidateMetadata) (less : Nat) :
    StakesM AccountId Native CandidateMetadata := do
  ensure (self.request = none) (.staking .pendingCandidateRequestAlreadyExists)
  ensure (self.bond > less) (.staking .candidateBondBelowMin)
  let whenExecutable ←
    u32Result config.overflowChecks (round.current + config.candidateBondLessDelay : Nat)
  return { self with request := some { amount := less, whenExecutable } }

/-- Execute the pending decrease of the self bond. -/
def executeBondLess (config : Config AccountId Native) (round : RoundInfo)
    (self : CandidateMetadata) (who : AccountId) :
    StakesM AccountId Native CandidateMetadata := do
  let request ← require self.request (.staking .pendingCandidateRequestsDNE)
  ensure (request.whenExecutable ≤ round.current) (.staking .pendingCandidateRequestNotDueYet)
  let self ← self.bondLess config who request.amount
  return { self with request := none }

/-- Cancel the pending decrease of the self bond. -/
def cancelBondLess (self : CandidateMetadata) : StakesM AccountId Native CandidateMetadata := do
  let _ ← require self.request (.staking .pendingCandidateRequestsDNE)
  return { self with request := none }

/-! ## Cached data of the two lists -/

/-- Refresh the data of the top list, and the pool entry when it changes. -/
def resetTopData (config : Config AccountId Native) (self : CandidateMetadata)
    (candidate : AccountId) (topDelegations : Delegations AccountId) :
    StakesM AccountId Native CandidateMetadata := do
  let oldTotalCounted := self.totalCounted
  let self := { self with
    lowestTopDelegationAmount := topDelegations.lowestDelegationAmount
    topCapacity := topDelegations.capacity config.maxTopDelegationsPerCandidate
    totalCounted := self.bond + topDelegations.total }
  if oldTotalCounted ≠ self.totalCounted ∧ self.isActive then
    updateActive config candidate self.totalCounted
  return self

/-- Refresh the data of the bottom list. -/
def resetBottomData (config : Config AccountId Native) (self : CandidateMetadata)
    (bottomDelegations : Delegations AccountId) : CandidateMetadata :=
  { self with
    lowestBottomDelegationAmount := bottomDelegations.lowestDelegationAmount
    highestBottomDelegationAmount := bottomDelegations.highestDelegationAmount
    bottomCapacity := bottomDelegations.capacity config.maxBottomDelegationsPerCandidate }

/-! ## Storage of the two lists -/

/-- Read the top delegations; a candidate has them. -/
def readTop (candidate : AccountId) (missing : Fault) :
    StakesM AccountId Native (Delegations AccountId) := do
  require ((← read).topDelegations.get candidate) missing

/-- Read the bottom delegations; a candidate has them. -/
def readBottom (candidate : AccountId) (missing : Fault) :
    StakesM AccountId Native (Delegations AccountId) := do
  require ((← read).bottomDelegations.get candidate) missing

def insertTop (candidate : AccountId) (topDelegations : Delegations AccountId) :
    StakesM AccountId Native Unit :=
  write fun stakes => { stakes with
    topDelegations := stakes.topDelegations.insert candidate topDelegations }

def insertBottom (candidate : AccountId) (bottomDelegations : Delegations AccountId) :
    StakesM AccountId Native Unit :=
  write fun stakes => { stakes with
    bottomDelegations := stakes.bottomDelegations.insert candidate bottomDelegations }

/-! ## Adding a delegation -/

/-- Remove the delegation of a kicked delegator from its own state. -/
def kick (config : Config AccountId Native) (candidate : AccountId)
    (lowestBottomToBeKicked : Bond AccountId) : StakesM AccountId Native Unit := do
  let delegatorState ←
    require ((← read).delegatorState.get lowestBottomToBeKicked.owner)
      (.panic .delegatorStateExists)
  let leaving : Bool := delegatorState.delegations.entries.length = 1
  let (delegatorState, _) ← delegatorState.rmDelegation config candidate
  let delegatorState ←
    delegationRemoveRequestWithState candidate lowestBottomToBeKicked.owner delegatorState
  if leaving then
    write fun stakes => { stakes with
      delegatorState := stakes.delegatorState.remove lowestBottomToBeKicked.owner }
  else
    write fun stakes => { stakes with
      delegatorState :=
        stakes.delegatorState.insert lowestBottomToBeKicked.owner delegatorState }

/-- Add a delegation to the bottom list, kicking the lowest one if the list is full. -/
def addBottomDelegation (config : Config AccountId Native) (self : CandidateMetadata)
    (bumpedFromTop : Bool) (candidate : AccountId) (delegation : Bond AccountId) :
    StakesM AccountId Native CandidateMetadata := do
  let bottomDelegations ← readBottom candidate (.panic .bottomDelegationsExist)
  let (bottomDelegations, increaseDelegationCount) ←
    if bottomDelegations.delegations.length = config.maxBottomDelegationsPerCandidate then do
      let (bottomDelegations, lowestBottomToBeKicked) ←
        require bottomDelegations.pop (.panic .bottomPop)
      let bottomDelegations := { bottomDelegations with
        total := bottomDelegations.total - lowestBottomToBeKicked.amount }
      kick config candidate lowestBottomToBeKicked
      pure (bottomDelegations, false)
    else pure (bottomDelegations, !bumpedFromTop)
  let self :=
    if increaseDelegationCount then { self with delegationCount := self.delegationCount + 1 }
    else self
  let bottomDelegations := bottomDelegations.insertSortedGreatestToLeast delegation
  let self := self.resetBottomData config bottomDelegations
  insertBottom candidate bottomDelegations
  return self

/-- Add a delegation to the top list, bumping the lowest one to the bottom if the
list is full.  The second result is the amount of a kicked bottom delegation. -/
def addTopDelegation (config : Config AccountId Native) (self : CandidateMetadata)
    (candidate : AccountId) (delegation : Bond AccountId) :
    StakesM AccountId Native (CandidateMetadata × Option Nat) := do
  let topDelegations ← readTop candidate (.panic .topDelegationsExist)
  let (self, topDelegations, lessTotalStaked) ←
    if topDelegations.delegations.length = config.maxTopDelegationsPerCandidate then do
      let (topDelegations, newBottomDelegation) ←
        require topDelegations.pop (.panic .topPop)
      let topDelegations := { topDelegations with
        total := topDelegations.total - newBottomDelegation.amount }
      let lessTotalStaked :=
        if self.bottomCapacity = .full then some self.lowestBottomDelegationAmount else none
      let self ← self.addBottomDelegation config true candidate newBottomDelegation
      pure (self, topDelegations, lessTotalStaked)
    else pure (self, topDelegations, none)
  let topDelegations := topDelegations.insertSortedGreatestToLeast delegation
  let self ← self.resetTopData config candidate topDelegations
  let self :=
    if lessTotalStaked = none then { self with delegationCount := self.delegationCount + 1 }
    else self
  insertTop candidate topDelegations
  return (self, lessTotalStaked)

/-- Add a delegation.  The last result is the amount of a kicked bottom delegation. -/
def addDelegation (config : Config AccountId Native) (self : CandidateMetadata)
    (candidate : AccountId) (delegation : Bond AccountId) :
    StakesM AccountId Native (CandidateMetadata × DelegatorAdded × Option Nat) := do
  match self.topCapacity with
  | .full =>
      if self.lowestTopDelegationAmount < delegation.amount then do
        let (self, lessTotalStaked) ← self.addTopDelegation config candidate delegation
        return (self, .addedToTop self.totalCounted, lessTotalStaked)
      else do
        if self.bottomCapacity = .full then
          ensure (delegation.amount > self.lowestBottomDelegationAmount)
            (.staking .cannotDelegateLessThanOrEqualToLowestBottomWhenFull)
        let lessTotalStaked :=
          if self.bottomCapacity = .full then some self.lowestBottomDelegationAmount else none
        let self ← self.addBottomDelegation config false candidate delegation
        return (self, .addedToBottom, lessTotalStaked)
  | _ => do
      let (self, _) ← self.addTopDelegation config candidate delegation
      return (self, .addedToTop self.totalCounted, none)

/-! ## Removing a delegation -/

/-- Remove a top delegation; the first of the bottom takes its place. -/
def rmTopDelegation (config : Config AccountId Native) (self : CandidateMetadata)
    (candidate delegator : AccountId) :
    StakesM AccountId Native (CandidateMetadata × Bool) := do
  let oldTotalCounted := self.totalCounted
  let topDelegations ← readTop candidate (.panic .topDelegationsExist)
  let actualAmount ←
    require ((lookupLast Bond.owner topDelegations.delegations delegator).map Bond.amount)
      (.staking .delegationDNE)
  let topDelegations : Delegations AccountId :=
    { delegations := erase Bond.owner topDelegations.delegations delegator
      total := topDelegations.total - actualAmount }
  let (self, topDelegations) ←
    if self.bottomCapacity ≠ .empty then do
      let bottomDelegations ← readBottom candidate (.panic .bottomIsNonempty)
      let highestBottomDelegation ←
        require bottomDelegations.delegations.head? (.panic .bottomRemoveFirst)
      let bottomDelegations : Delegations AccountId :=
        { delegations := bottomDelegations.delegations.tail
          total := bottomDelegations.total - highestBottomDelegation.amount }
      let self := self.resetBottomData config bottomDelegations
      insertBottom candidate bottomDelegations
      pure (self, topDelegations.insertSortedGreatestToLeast highestBottomDelegation)
    else pure (self, topDelegations)
  let self ← self.resetTopData config candidate topDelegations
  let self := { self with delegationCount := self.delegationCount - 1 }
  insertTop candidate topDelegations
  return (self, oldTotalCounted = self.totalCounted)

/-- Remove a bottom delegation. -/
def rmBottomDelegation (config : Config AccountId Native) (self : CandidateMetadata)
    (candidate delegator : AccountId) :
    StakesM AccountId Native (CandidateMetadata × Bool) := do
  let bottomDelegations ← readBottom candidate (.panic .bottomDelegationsExist)
  let actualAmount ←
    require ((lookupLast Bond.owner bottomDelegations.delegations delegator).map Bond.amount)
      (.staking .delegationDNE)
  let bottomDelegations : Delegations AccountId :=
    { delegations := erase Bond.owner bottomDelegations.delegations delegator
      total := bottomDelegations.total - actualAmount }
  let self := self.resetBottomData config bottomDelegations
  let self := { self with delegationCount := self.delegationCount - 1 }
  insertBottom candidate bottomDelegations
  return (self, false)

/-- Try the top list, and the bottom list if the delegation is not in the top. -/
def topElseBottom {α : Type} (top bottom : StakesM AccountId Native α) :
    StakesM AccountId Native α :=
  handle top fun fault => if fault = .staking .delegationDNE then bottom else fail fault

/-- Remove a delegation, from the top if the amount is above the lowest top or
the top is not full. -/
def rmDelegationIfExists (config : Config AccountId Native) (self : CandidateMetadata)
    (candidate delegator : AccountId) (amount : Nat) :
    StakesM AccountId Native (CandidateMetadata × Bool) :=
  let amountGeqLowestTop := amount ≥ self.lowestTopDelegationAmount
  let topIsNotFull := self.topCapacity ≠ .full
  let lowestTopEqHighestBottom :=
    self.lowestTopDelegationAmount = self.highestBottomDelegationAmount
  if topIsNotFull ∨ (amountGeqLowestTop ∧ ¬lowestTopEqHighestBottom) then
    self.rmTopDelegation config candidate delegator
  else if amountGeqLowestTop ∧ lowestTopEqHighestBottom then
    topElseBottom (self.rmTopDelegation config candidate delegator)
      (self.rmBottomDelegation config candidate delegator)
  else self.rmBottomDelegation config candidate delegator

/-! ## Increasing a delegation -/

/-- Increase a top delegation. -/
def increaseTopDelegation (config : Config AccountId Native) (self : CandidateMetadata)
    (candidate delegator : AccountId) (more : Nat) :
    StakesM AccountId Native (CandidateMetadata × Bool) := do
  let topDelegations ← readTop candidate (.panic .topDelegationsExist)
  ensure ((lookup Bond.owner topDelegations.delegations delegator).isSome = true)
    (.staking .delegationDNE)
  let topDelegations : Delegations AccountId :=
    { delegations := adjust Bond.owner topDelegations.delegations delegator fun bond =>
        { bond with amount := bond.amount + more }
      total := topDelegations.total + more }
  let topDelegations := topDelegations.sortGreatestToLeast
  let self ← self.resetTopData config candidate topDelegations
  insertTop candidate topDelegations
  return (self, true)

/-- Increase a bottom delegation, moving it to the top if it passes the lowest top. -/
def increaseBottomDelegation (config : Config AccountId Native) (self : CandidateMetadata)
    (candidate delegator : AccountId) (bond more : Nat) :
    StakesM AccountId Native (CandidateMetadata × Bool) := do
  let bottomDelegations ← readBottom candidate (.staking .candidateDNE)
  let (self, bottomDelegations, inTopAfter) ←
    if bond + more > self.lowestTopDelegationAmount then do
      let found ← require (lookupLast Bond.owner bottomDelegations.delegations delegator)
        (.staking .delegationDNE)
      let delegation := { found with amount := found.amount + more }
      let bottomDelegations : Delegations AccountId :=
        { delegations := erase Bond.owner bottomDelegations.delegations delegator
          total := bottomDelegations.total - bond }
      let topDelegations ← readTop candidate (.panic .topDelegationsExist)
      let (topDelegations, bottomDelegations) ←
        if topDelegations.capacity config.maxTopDelegationsPerCandidate = .full then do
          let (topDelegations, newBottomDelegation) ←
            require topDelegations.pop (.panic .topPop)
          let topDelegations := { topDelegations with
            total := topDelegations.total - newBottomDelegation.amount }
          pure (topDelegations,
            bottomDelegations.insertSortedGreatestToLeast newBottomDelegation)
        else pure (topDelegations, bottomDelegations)
      let topDelegations := topDelegations.insertSortedGreatestToLeast delegation
      let self ← self.resetTopData config candidate topDelegations
      insertTop candidate topDelegations
      pure (self, bottomDelegations, true)
    else do
      ensure ((lookup Bond.owner bottomDelegations.delegations delegator).isSome = true)
        (.staking .delegationDNE)
      let bottomDelegations : Delegations AccountId :=
        { delegations := adjust Bond.owner bottomDelegations.delegations delegator fun bond =>
            { bond with amount := bond.amount + more }
          total := bottomDelegations.total + more }
      pure (self, bottomDelegations.sortGreatestToLeast, false)
  let self := self.resetBottomData config bottomDelegations
  insertBottom candidate bottomDelegations
  return (self, inTopAfter)

/-- Increase a delegation. -/
def increaseDelegation (config : Config AccountId Native) (self : CandidateMetadata)
    (candidate delegator : AccountId) (bond more : Nat) :
    StakesM AccountId Native (CandidateMetadata × Bool) :=
  let lowestTopEqHighestBottom :=
    self.lowestTopDelegationAmount = self.highestBottomDelegationAmount
  let bondGeqLowestTop := bond ≥ self.lowestTopDelegationAmount
  if bondGeqLowestTop ∧ ¬lowestTopEqHighestBottom then
    self.increaseTopDelegation config candidate delegator more
  else if bondGeqLowestTop ∧ lowestTopEqHighestBottom then
    topElseBottom (self.increaseTopDelegation config candidate delegator more)
      (self.increaseBottomDelegation config candidate delegator bond more)
  else self.increaseBottomDelegation config candidate delegator bond more

/-! ## Decreasing a delegation -/

/-- Decrease a top delegation, swapping it with the first of the bottom if it
falls below. -/
def decreaseTopDelegation (config : Config AccountId Native) (self : CandidateMetadata)
    (candidate delegator : AccountId) (bond less : Nat) :
    StakesM AccountId Native (CandidateMetadata × Bool) := do
  let bondAfterLessThanHighestBottom := bond - less < self.highestBottomDelegationAmount
  let fullTopAndNonemptyBottom := self.topCapacity = .full ∧ self.bottomCapacity ≠ .empty
  let topDelegations ← readTop candidate (.staking .candidateDNE)
  let (self, topDelegations, inTopAfter) ←
    if bondAfterLessThanHighestBottom ∧ fullTopAndNonemptyBottom then do
      let found ← require (lookupLast Bond.owner topDelegations.delegations delegator)
        (.staking .delegationDNE)
      let delegation := { found with amount := found.amount - less }
      let topDelegations : Delegations AccountId :=
        { delegations := erase Bond.owner topDelegations.delegations delegator
          total := topDelegations.total -
            Delegations.sumAmounts (select Bond.owner topDelegations.delegations delegator) }
      let bottomDelegations ← readBottom candidate (.panic .bottomDelegationsExist)
      let highestBottomDelegation ←
        require bottomDelegations.delegations.head? (.panic .bottomRemoveFirst)
      let bottomDelegations : Delegations AccountId :=
        { delegations := bottomDelegations.delegations.tail
          total := bottomDelegations.total - highestBottomDelegation.amount }
      let topDelegations := topDelegations.insertSortedGreatestToLeast highestBottomDelegation
      let bottomDelegations := bottomDelegations.insertSortedGreatestToLeast delegation
      let self := self.resetBottomData config bottomDelegations
      insertBottom candidate bottomDelegations
      pure (self, topDelegations, false)
    else do
      ensure ((lookup Bond.owner topDelegations.delegations delegator).isSome = true)
        (.staking .delegationDNE)
      let topDelegations : Delegations AccountId :=
        { delegations := adjust Bond.owner topDelegations.delegations delegator fun bond =>
            { bond with amount := bond.amount - less }
          total := topDelegations.total - less }
      pure (self, topDelegations.sortGreatestToLeast, true)
  let self ← self.resetTopData config candidate topDelegations
  insertTop candidate topDelegations
  return (self, inTopAfter)

/-- Decrease a bottom delegation. -/
def decreaseBottomDelegation (config : Config AccountId Native) (self : CandidateMetadata)
    (candidate delegator : AccountId) (less : Nat) :
    StakesM AccountId Native (CandidateMetadata × Bool) := do
  let bottomDelegations ← readBottom candidate (.panic .bottomDelegationsExist)
  ensure ((lookup Bond.owner bottomDelegations.delegations delegator).isSome = true)
    (.staking .delegationDNE)
  let bottomDelegations : Delegations AccountId := { bottomDelegations with
    delegations := adjust Bond.owner bottomDelegations.delegations delegator fun bond =>
      { bond with amount := bond.amount - less } }
  let bottomDelegations := bottomDelegations.sortGreatestToLeast
  let self := self.resetBottomData config bottomDelegations
  insertBottom candidate bottomDelegations
  return (self, false)

/-- Decrease a delegation. -/
def decreaseDelegation (config : Config AccountId Native) (self : CandidateMetadata)
    (candidate delegator : AccountId) (bond less : Nat) :
    StakesM AccountId Native (CandidateMetadata × Bool) :=
  let lowestTopEqHighestBottom :=
    self.lowestTopDelegationAmount = self.highestBottomDelegationAmount
  let bondGeqLowestTop := bond ≥ self.lowestTopDelegationAmount
  if bondGeqLowestTop ∧ ¬lowestTopEqHighestBottom then
    self.decreaseTopDelegation config candidate delegator bond less
  else if bondGeqLowestTop ∧ lowestTopEqHighestBottom then
    topElseBottom (self.decreaseTopDelegation config candidate delegator bond less)
      (self.decreaseBottomDelegation config candidate delegator less)
  else self.decreaseBottomDelegation config candidate delegator less

end CandidateMetadata

end Popsicle
