import Popsicle.State
import Popsicle.Delegations

/-!
# Delegators

The operations of `Delegator` in `types.rs` that a candidate can trigger, and the
removal of a pending request from `delegation_requests.rs`.
-/

namespace Popsicle

open Foundation Exec Keyed

variable {AccountId Native : Type} [LinearOrder AccountId]

namespace Delegator

def new (id sequencer : AccountId) (amount : Nat) : Delegator AccountId where
  id := id
  delegations := OrderedSet.fromVec [{ owner := sequencer, amount }]
  total := amount
  lessTotal := 0

/-- Lower the total after a check of the new total, and transfer BTC to the delegator. -/
def totalSubIf (config : Config AccountId Native) (self : Delegator AccountId)
    (amount : Nat) (check : Nat → StakesM AccountId Native Unit) :
    StakesM AccountId Native (Delegator AccountId) := do
  let total := self.total - amount
  check total
  let self := { self with total }
  transferBtc config config.palletAccount self.id amount
  return self

/-- Lower the total and transfer BTC to the delegator. -/
def totalSub (config : Config AccountId Native) (self : Delegator AccountId)
    (amount : Nat) : StakesM AccountId Native (Delegator AccountId) := do
  let self := { self with total := self.total - amount }
  transferBtc config config.palletAccount self.id amount
  return self

/-- Add a delegation; the flag tells whether it is new. -/
def addDelegation (self : Delegator AccountId) (bond : Bond AccountId) :
    Delegator AccountId × Bool :=
  match self.delegations.insert bond with
  | (delegations, true) => ({ self with delegations, total := self.total + bond.amount }, true)
  | (_, false) => (self, false)

/-- Remove the delegation to a sequencer, refund it, and answer the remaining
total; answer `none` if there is no such delegation. -/
def rmDelegation (config : Config AccountId Native) (self : Delegator AccountId)
    (sequencer : AccountId) :
    StakesM AccountId Native (Delegator AccountId × Option Nat) := do
  let amt := (lookupLast Bond.owner self.delegations.entries sequencer).map Bond.amount
  let delegations := erase Bond.owner self.delegations.entries sequencer
  match amt with
  | some balance =>
      let self := { self with delegations := OrderedSet.fromVec delegations }
      let self ← expectOk .decreasingLockCannotFail (self.totalSub config balance)
      return (self, some self.total)
  | none => return (self, none)

/-- The bond amount that a delegator has provided towards a sequencer. -/
def getBondAmount (self : Delegator AccountId) (sequencer : AccountId) : Option Nat :=
  (lookup Bond.owner self.delegations.entries sequencer).map Bond.amount

end Delegator

/-- The request of a delegator among the scheduled ones. -/
def findRequest (scheduledRequests : List (ScheduledRequest AccountId))
    (delegator : AccountId) : Option (ScheduledRequest AccountId) :=
  lookup ScheduledRequest.delegator scheduledRequests delegator

/-- The scheduled requests without the first one of a delegator. -/
def removeRequest (scheduledRequests : List (ScheduledRequest AccountId))
    (delegator : AccountId) : List (ScheduledRequest AccountId) :=
  scheduledRequests.eraseP fun request => request.delegator = delegator

/-- Take the request of a delegator off the list and off its pending total. -/
def cancelRequestWithState (delegator : AccountId) (state : Delegator AccountId)
    (scheduledRequests : List (ScheduledRequest AccountId)) :
    Option (ScheduledRequest AccountId × Delegator AccountId ×
      List (ScheduledRequest AccountId)) :=
  (findRequest scheduledRequests delegator).map fun request =>
    (request, { state with lessTotal := state.lessTotal - request.action.amount },
      removeRequest scheduledRequests delegator)

/-- Remove the delegator's request towards a sequencer, if there is one.  The
delegator state is for the caller to store. -/
def delegationRemoveRequestWithState (sequencer delegator : AccountId)
    (state : Delegator AccountId) : StakesM AccountId Native (Delegator AccountId) := do
  let stakes ← read
  match cancelRequestWithState delegator state (stakes.requests sequencer) with
  | some (_, state, scheduledRequests) =>
      write fun stakes => { stakes with
        delegationScheduledRequests :=
          stakes.delegationScheduledRequests.insert sequencer scheduledRequests }
      return state
  | none => return state

end Popsicle
