import Popsicle.ListOps
import Popsicle.Records
import Popsicle.Escrow

/-!
# What holds of the storage of stakes

`Sound` holds in every state.  `Agrees` says that the records of the delegators,
the requests, and the lists of the candidates describe the same delegations; it
is what the `expect` messages of the code appeal to.
-/

namespace Popsicle

open Foundation Exec Keyed

variable {AccountId Native : Type} [LinearOrder AccountId] {config : Config AccountId Native}

/-- Every map has the entries that the others imply. -/
structure Sound (config : Config AccountId Native) (stakes : Stakes AccountId Native) :
    Prop where
  pool : PoolHolds config stakes.candidatePool (activeTotals stakes.candidateInfo)
  top : StorageMap.SameKeys stakes.topDelegations stakes.candidateInfo
  bottom : StorageMap.SameKeys stakes.bottomDelegations stakes.candidateInfo
  records : ∀ account state, stakes.delegatorState.get account = some state →
    Delegator.Consistent account state
  apart : ∀ account state, stakes.delegatorState.get account = some state →
    stakes.candidateInfo.get account = none
  requests : ∀ candidate info, stakes.candidateInfo.get candidate = some info →
    ∀ request, info.request = some request → request.amount < info.bond

/-- The lists of every candidate describe the delegations of a book. -/
structure ListsHold (config : Config AccountId Native)
    (candidateInfo : StorageMap AccountId CandidateMetadata)
    (topDelegations bottomDelegations : StorageMap AccountId (Delegations AccountId))
    (book : AccountId → AccountId → Option Nat) : Prop where
  listed : ∀ candidate info, candidateInfo.get candidate = some info →
    ∃ top bottom, topDelegations.get candidate = some top ∧
      bottomDelegations.get candidate = some bottom ∧ Listed config info top bottom ∧
      ∀ delegator, (lookup Bond.owner (table top bottom) delegator).map Bond.amount =
        book delegator candidate
  absent : ∀ candidate, candidateInfo.get candidate = none →
    ∀ delegator, book delegator candidate = none

/-- Records, requests and lists describe the same delegations. -/
structure Agrees (config : Config AccountId Native) (stakes : Stakes AccountId Native) :
    Prop where
  records : RecordsHold config stakes.delegatorState stakes.delegationScheduledRequests
  lists : ListsHold config stakes.candidateInfo stakes.topDelegations
    stakes.bottomDelegations (booked stakes.delegatorState)

/-! ## The two lists of a stored candidate -/

section Stored

variable {stakes : Stakes AccountId Native} {candidate : AccountId} {info : CandidateMetadata}
  {top bottom : Delegations AccountId}

theorem Sound.exists_lists (sound : Sound config stakes)
    (stored : stakes.candidateInfo.get candidate = some info) :
    ∃ top bottom, stakes.topDelegations.get candidate = some top ∧
      stakes.bottomDelegations.get candidate = some bottom := by
  have hasTop := sound.top candidate
  have hasBottom := sound.bottom candidate
  rw [stored, Option.isSome_some] at hasTop hasBottom
  obtain ⟨top, storedTop⟩ := Option.isSome_iff_exists.mp hasTop
  obtain ⟨bottom, storedBottom⟩ := Option.isSome_iff_exists.mp hasBottom
  exact ⟨top, bottom, storedTop, storedBottom⟩

theorem Sound.pooled (sound : Sound config stakes)
    (stored : stakes.candidateInfo.get candidate = some info) :
    Pooled config candidate (some info) stakes :=
  sound.pool.pooled stored

variable (agrees : Agrees config stakes)
  (stored : stakes.candidateInfo.get candidate = some info)
  (storedTop : stakes.topDelegations.get candidate = some top)
  (storedBottom : stakes.bottomDelegations.get candidate = some bottom)
include agrees stored storedTop storedBottom

theorem Agrees.listed : Listed config info top bottom ∧
    ∀ delegator, (lookup Bond.owner (table top bottom) delegator).map Bond.amount =
      booked stakes.delegatorState delegator candidate := by
  obtain ⟨top', bottom', hasTop, hasBottom, listed, amounts⟩ :=
    agrees.lists.listed candidate info stored
  rw [storedTop] at hasTop
  rw [storedBottom] at hasBottom
  cases hasTop
  cases hasBottom
  exact ⟨listed, amounts⟩

/-- A booked delegation is in the lists with the booked amount. -/
theorem Agrees.lookup_table {delegator : AccountId} {amount : Nat}
    (recorded : booked stakes.delegatorState delegator candidate = some amount) :
    lookup Bond.owner (table top bottom) delegator = some { owner := delegator, amount } := by
  obtain ⟨_, amounts⟩ := agrees.listed stored storedTop storedBottom
  rw [← amounts delegator, Option.map_eq_some_iff] at recorded
  obtain ⟨bond, found, rfl⟩ := recorded
  rw [found, ← key_of_lookup found]

theorem Agrees.recorded {delegator : AccountId} {amount : Nat}
    (recorded : booked stakes.delegatorState delegator candidate = some amount) :
    Recorded top bottom delegator amount := by
  intro bond found
  rw [agrees.lookup_table stored storedTop storedBottom recorded] at found
  cases found
  rfl

theorem Agrees.booked_of_mem {bond : Bond AccountId} (member : bond ∈ table top bottom) :
    booked stakes.delegatorState bond.owner candidate = some bond.amount := by
  obtain ⟨listed, amounts⟩ := agrees.listed stored storedTop storedBottom
  rw [← amounts bond.owner, listed.distinct.lookup_of_mem member]
  rfl

end Stored

/-! ## Safe states -/

/-- A funded state in which everything agrees. -/
structure Safe (config : Config AccountId Native) (stakes : Stakes AccountId Native) :
    Prop where
  sound : Sound config stakes
  agrees : Agrees config stakes
  funded : Funded config stakes
  roomy : Roomy config
  minDelegation : 1 ≤ config.minDelegation

section Refunds

variable {stakes : Stakes AccountId Native} {candidate delegator : AccountId}
  {state : Delegator AccountId} {amount : Nat}

theorem Safe.refundable (safe : Safe config stakes)
    (stored : stakes.delegatorState.get delegator = some state)
    (recorded : state.getBondAmount candidate = some amount) :
    Refundable config stakes.btc.balance delegator amount :=
  safe.funded.refundable (safe.sound.records delegator state stored) stored recorded

end Refunds

end Popsicle
