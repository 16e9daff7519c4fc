import Popsicle.Staking
import Popsicle.Grouping
import Mathlib.Logic.Function.Basic

/-!
# Rounds

What the staking pallet does when a block is initialized: it changes the round,
pays one sequencer of an earlier round, and selects the sequencers of the next
round.
-/

namespace Popsicle

open Foundation Exec Keyed

variable {AccountId Native : Type} [LinearOrder AccountId]

/-- Run pallet code over the storage of stakes. -/
def onStakes {α : Type} (body : StakesM AccountId Native α) : ChainM AccountId Native α :=
  zoom State.stakes (fun state stakes => { state with stakes }) body

/-- Run pallet code over the storage of groups. -/
def onGroups {α : Type} (body : GroupsM AccountId α) : ChainM AccountId Native α :=
  zoom State.groups (fun state groups => { state with groups }) body

/-- Update the storage of rounds. -/
def writeRounds (update : Rounds AccountId → Rounds AccountId) :
    ChainM AccountId Native Unit :=
  write fun state => { state with rounds := update state.rounds }

/-! ## Payouts -/

/-- The points awarded to a sequencer in a round. -/
def Rounds.awarded (rounds : Rounds AccountId) (round : Nat) (sequencer : AccountId) :
    Nat :=
  ((rounds.awardedPts round).get sequencer).getD 0

/-- Award points to a sequencer for the current round; the counters saturate. -/
def awardPointsToSequencer (sequencer : AccountId) (points : Nat)
    (rounds : Rounds AccountId) : Rounds AccountId :=
  let now := rounds.round.current
  let totalPoints := min u32Max (rounds.awarded now sequencer + points)
  { rounds with
    awardedPts := Function.update rounds.awardedPts now
      ((rounds.awardedPts now).insert sequencer totalPoints)
    points := Function.update rounds.points now (min u32Max (rounds.points now + points)) }

/-- Prepare the payout of the round that has just ended. -/
def prepareStakingPayouts (config : Config AccountId Native) (roundInfo : RoundInfo)
    (rounds : Rounds AccountId) : Rounds AccountId :=
  let preparePayoutForRound := roundInfo.current - 1
  if rounds.points preparePayoutForRound = 0 then rounds
  else
    let payout : DelayedPayout :=
      { totalStakingReward := config.roundReward
        sequencerCommission := rounds.sequencerCommission }
    { rounds with delayedPayouts := rounds.delayedPayouts.insert preparePayoutForRound payout }

/-- The outcome of an attempt to pay a sequencer. -/
inductive RewardPayment where
  | paid
  | skipped
  | finished
  deriving DecidableEq

/-- Pay from the pallet account; a failed transfer is dropped. -/
def payoutReward (config : Config AccountId Native) (payment : Bond AccountId) :
    StakesM AccountId Native Unit :=
  write fun stakes =>
    match config.currency.transfer stakes.native config.palletAccount payment.owner
        payment.amount false with
    | some native => { stakes with native }
    | none => stakes

def payoutRewards (config : Config AccountId Native) :
    List (Bond AccountId) → StakesM AccountId Native Unit
  | [] => pure ()
  | payment :: rest => do
      payoutReward config payment
      payoutRewards config rest

/-- The payments for one snapshotted sequencer: its own first, then those of its
delegators that are not zero. -/
def orderedPayments (payoutInfo : DelayedPayout) (totalPoints pts : Nat)
    (sequencer : AccountId) (state : SequencerSnapshot AccountId) : List (Bond AccountId) :=
  let sequencerFee := payoutInfo.sequencerCommission
  let sequencerIssuance := sequencerFee.mul payoutInfo.totalStakingReward
  let stakingIssuance := payoutInfo.totalStakingReward - sequencerIssuance
  let pctDue := Perbill.fromRational pts totalPoints
  let totalPaid := pctDue.mul stakingIssuance
  if state.delegations.isEmpty then [{ owner := sequencer, amount := totalPaid }]
  else
    let sequencerPct := Perbill.fromRational state.bond state.total
    let commission := pctDue.mul sequencerIssuance
    let amtDue := totalPaid - commission
    let sequencerReward := sequencerPct.mul amtDue + commission
    let dues := state.delegations.map fun bond =>
      { bond with amount := (Perbill.fromRational bond.amount state.total).mul amtDue }
    { owner := sequencer, amount := sequencerReward } ::
      dues.filter fun due => due.amount ≠ 0

/-- Pay a single sequencer and its delegators for an earlier round. -/
def payOneSequencerReward (config : Config AccountId Native) (paidForRound : Nat)
    (payoutInfo : DelayedPayout) : ChainM AccountId Native RewardPayment := do
  let rounds := (← read).rounds
  let totalPoints := rounds.points paidForRound
  if totalPoints = 0 then return .finished
  let atStake := rounds.atStake paidForRound
  match config.keyOrder.first atStake.keys with
  | none => return .finished
  | some sequencer =>
      match atStake.get sequencer with
      | none => return .finished
      | some state => do
          writeRounds fun rounds => { rounds with
            atStake := Function.update rounds.atStake paidForRound (atStake.remove sequencer) }
          let pts := rounds.awarded paidForRound sequencer
          writeRounds fun rounds => { rounds with
            awardedPts := Function.update rounds.awardedPts paidForRound
              ((rounds.awardedPts paidForRound).remove sequencer) }
          if pts = 0 then return .skipped
          let payments := orderedPayments payoutInfo totalPoints pts sequencer state
          onStakes (payoutRewards config payments)
          writeRounds fun rounds => { rounds with
            orders := rounds.orders ++ [{
              round := paidForRound, payoutInfo, totalPoints, sequencer, points := pts
              snapshot := state, payments }] }
          return .paid

/-- Pay one sequencer of the round whose payment delay is over. -/
def handleDelayedPayouts (config : Config AccountId Native) (now : Nat) :
    ChainM AccountId Native Unit := do
  let delay := config.rewardPaymentDelay
  if now < delay then return ()
  let paidForRound := now - delay
  match (← read).rounds.delayedPayouts.get paidForRound with
  | none => return ()
  | some payoutInfo => do
      let result ← payOneSequencerReward config paidForRound payoutInfo
      if result = .finished then
        writeRounds fun rounds => { rounds with
          delayedPayouts := rounds.delayedPayouts.remove paidForRound
          points := Function.update rounds.points paidForRound 0 }

/-! ## Selection -/

/-- Greater amounts first; among equal amounts, greater owners first. -/
def selectsBefore (left right : Bond AccountId) : Bool :=
  decide (right.amount < left.amount ∨
    (right.amount = left.amount ∧ right.owner ≤ left.owner))

/-- The owners of the selected candidates, sorted; empty if there are none. -/
def computeTopCandidates (config : Config AccountId Native) :
    ChainM AccountId Native (List AccountId) := do
  let state ← read
  let topN ← totalSelected config state.groups
  if topN = 0 then return []
  let candidates := state.stakes.candidatePool.entries
  if candidates.length > topN then
    let sortedCandidates := candidates.insertionSort fun left right => selectsBefore left right
    let sequencers := (sortedCandidates.take topN).map Bond.owner
    return sequencers.insertionSort (· ≤ ·)
  else return candidates.map Bond.owner

/-- The delegations of a candidate as intended by its delegators. -/
structure CountedDelegations (AccountId : Type) where
  uncountedStake : Nat
  rewardableDelegations : List (Bond AccountId)

/-- What a pending request leaves uncounted of a bond. -/
def uncountedOf (requests : List (ScheduledRequest AccountId)) (bond : Bond AccountId) :
    Nat :=
  match (lookupLast ScheduledRequest.delegator requests bond.owner).map
      ScheduledRequest.action with
  | none => 0
  | some (.revoke _) => bond.amount
  | some (.decrease amount) => amount

/-- A bond with the pending request of its owner applied. -/
def rewardableOf (requests : List (ScheduledRequest AccountId)) (bond : Bond AccountId) :
    Bond AccountId :=
  match (lookupLast ScheduledRequest.delegator requests bond.owner).map
      ScheduledRequest.action with
  | none => bond
  | some (.revoke _) => { bond with amount := 0 }
  | some (.decrease amount) => { bond with amount := bond.amount - amount }

/-- Apply the pending requests of the delegators. -/
def getRewardableDelegators (stakes : Stakes AccountId Native) (sequencer : AccountId) :
    ChainM AccountId Native (CountedDelegations AccountId) := do
  let requests := stakes.requests sequencer
  let topDelegations ← require (stakes.topDelegations.get sequencer)
    (.panic .membersOfCandidateQ)
  return {
    uncountedStake := (topDelegations.delegations.map (uncountedOf requests)).sum
    rewardableDelegations := topDelegations.delegations.map (rewardableOf requests) }

/-- Snapshot the selected candidates for a round. -/
def snapshotCandidates (next : Nat) : List AccountId → ChainM AccountId Native Unit
  | [] => pure ()
  | account :: rest => do
      let stakes := (← read).stakes
      let state ← require (stakes.candidateInfo.get account) (.panic .membersOfCandidateQ)
      let counted ← getRewardableDelegators stakes account
      let totalCounted := state.totalCounted - counted.uncountedStake
      let snapshot : SequencerSnapshot AccountId :=
        { bond := state.bond
          delegations := counted.rewardableDelegations
          total := totalCounted }
      writeRounds fun rounds => { rounds with
        atStake := Function.update rounds.atStake next
          ((rounds.atStake next).insert account snapshot) }
      snapshotCandidates next rest

/-- Select the sequencers of a round: the top candidates, or those of the round
before if there are none. -/
def selectTopCandidates (config : Config AccountId Native) (next : Nat) :
    ChainM AccountId Native Unit := do
  let sequencers ← computeTopCandidates config
  if sequencers.isEmpty then do
    let currentRound := next - 1
    let rounds := (← read).rounds
    let current := rounds.atStake currentRound
    writeRounds fun rounds => { rounds with
      atStake := Function.update rounds.atStake next ((rounds.atStake next).overlay current) }
    ensure (∀ candidate ∈ rounds.selectedCandidates, (current.get candidate).isSome = true)
      (.panic .selectedCandidatesHaveSnapshots)
  else do
    snapshotCandidates next sequencers
    ensure (sequencers.length ≤ config.maxCandidates) (.panic .subsetOfMaxCandidates)
    writeRounds fun rounds => { rounds with selectedCandidates := sequencers }

/-! ## Block initialization -/

/-- Change the round if necessary, and otherwise continue the payouts. -/
def changeRound (config : Config AccountId Native) (n : Nat) :
    ChainM AccountId Native RoundInfo := do
  let round := (← read).rounds.round
  if round.shouldUpdate n then do
    let round := round.update n
    writeRounds (prepareStakingPayouts config round)
    writeRounds fun rounds => { rounds with
      round
      events := rounds.events ++ [.newRound round.first round.current] }
    return round
  else do
    handleDelayedPayouts config round.current
    return round

/-- Snapshot the current data for the next round if necessary. -/
def takeSnapshot (config : Config AccountId Native) (n : Nat) (round : RoundInfo) :
    ChainM AccountId Native Unit := do
  if round.shouldSnapshot n then
    let nextRound := round.current + 1
    selectTopCandidates config nextRound
    writeRounds fun rounds => { rounds with
      events := rounds.events ++ [.candidatesSelected nextRound] }
    let state ← read
    let nextRoundFirstBlock := round.first + round.length
    discardError (onGroups (triggerGroup config state.parentHash
      state.rounds.selectedCandidates nextRoundFirstBlock nextRound))

def onInitialize (config : Config AccountId Native) (n : Nat) :
    ChainM AccountId Native Unit := do
  let round ← changeRound config n
  takeSnapshot config n round

end Popsicle
