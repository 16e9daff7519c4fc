import Popsicle.Staking
import Mathlib.Logic.Function.Basic

/-!
# The candidate pool

The pool stores, for every active candidate and no one else, its counted total.
The operations on a candidate's lists refresh the pool before the caller stores
the changed metadata, so the statement is made relative to the metadata in hand.
-/

namespace Popsicle

open Foundation Exec Keyed

variable {AccountId Native : Type} [LinearOrder AccountId] {config : Config AccountId Native}

/-- The amount the pool stores for an account. -/
def poolAmount (pool : BoundedOrderedSet (Bond AccountId)) (account : AccountId) :
    Option Nat :=
  (lookup Bond.owner pool.entries account).map Bond.amount

/-- What the pool stores for an account with the given metadata. -/
def activeTotal (info : Option CandidateMetadata) : Option Nat :=
  info.bind fun info => if info.isActive then some info.totalCounted else none

theorem activeTotal_of_active {info : CandidateMetadata} (active : info.isActive = true) :
    activeTotal (some info) = some info.totalCounted := by
  simp [activeTotal, active]

theorem activeTotal_of_not_active {info : CandidateMetadata} (idle : ¬info.isActive = true) :
    activeTotal (some info) = none := by
  simp [activeTotal, idle]

/-- The pool is sorted, bounded, and stores the given totals. -/
structure PoolHolds (config : Config AccountId Native)
    (pool : BoundedOrderedSet (Bond AccountId)) (totals : AccountId → Option Nat) :
    Prop where
  sorted : SortedByOwner pool.entries
  bounded : pool.entries.length ≤ config.maxCandidates
  amounts : ∀ account, poolAmount pool account = totals account

namespace PoolHolds

variable {pool : BoundedOrderedSet (Bond AccountId)} {totals : AccountId → Option Nat}
  {candidate : AccountId}

theorem isSome_lookup (holds : PoolHolds config pool totals) (account : AccountId) :
    (lookup Bond.owner pool.entries account).isSome = (totals account).isSome := by
  rw [← holds.amounts account, poolAmount, Option.isSome_map]

theorem remove (holds : PoolHolds config pool totals) :
    PoolHolds config ⟨Keyed.erase Bond.owner pool.entries candidate⟩
      (Function.update totals candidate none) where
  sorted := holds.sorted.sublist (erase_sublist _ _)
  bounded := (erase_sublist _ _).length_le.trans holds.bounded
  amounts account := by
    rw [poolAmount, lookup_erase, Function.update_apply, ← holds.amounts account]
    split <;> rfl

theorem inserted (holds : PoolHolds config pool totals) {amount : Nat}
    {entries : List (Bond AccountId)} (sorted : SortedByOwner entries)
    (bounded : entries.length ≤ config.maxCandidates)
    (perm : entries.Perm ({ owner := candidate, amount } :: pool.entries)) :
    PoolHolds config ⟨entries⟩ (Function.update totals candidate (some amount)) where
  sorted := sorted
  bounded := bounded
  amounts account := by
    have distinct : Distinct Bond.owner ({ owner := candidate, amount } :: pool.entries) :=
      sorted.distinct.perm perm.symm
    rw [poolAmount, distinct.lookup_perm perm, lookup_cons, Function.update_apply,
      ← holds.amounts account]
    by_cases equal : account = candidate
    · simp [equal]
    · simp [equal, Ne.symm equal, poolAmount]

theorem tryInsert (holds : PoolHolds config pool totals) {amount : Nat}
    {result : BoundedOrderedSet (Bond AccountId) × Bool}
    (outcome : pool.tryInsert config.maxCandidates { owner := candidate, amount } = some result)
    (insertion : result.2 = true) :
    PoolHolds config result.1 (Function.update totals candidate (some amount)) := by
  rcases BoundedOrderedSet.tryInsert_cases holds.sorted outcome with
    ⟨rfl, _⟩ | ⟨_, _, sorted, perm, bounded⟩
  · cases insertion
  · exact holds.inserted sorted bounded perm

end PoolHolds

/-- Updating an active candidate replaces its amount and cannot fail. -/
theorem ends_updateActive {stakes : Stakes AccountId Native}
    {totals : AccountId → Option Nat} {candidate : AccountId} {total : Nat}
    (holds : PoolHolds config stakes.candidatePool totals)
    (active : (totals candidate).isSome = true) :
    (updateActive config candidate total).Ends stakes
      (fun _ after => ∃ pool, after = { stakes with candidatePool := pool } ∧
        PoolHolds config pool (Function.update totals candidate (some total)))
      fun _ _ => False := by
  obtain ⟨entry, found⟩ := Option.isSome_iff_exists.mp
    ((holds.isSome_lookup candidate).trans active)
  have shorter := holds.sorted.distinct.length_erase found
  have bounded := holds.bounded
  have removed : PoolHolds config ⟨Keyed.erase Bond.owner stakes.candidatePool.entries candidate⟩
      (Function.update totals candidate none) := holds.remove
  have absent : lookup Bond.owner
      (Keyed.erase Bond.owner stakes.candidatePool.entries candidate) candidate = none := by
    simp [lookup_erase]
  have room : (Keyed.erase Bond.owner stakes.candidatePool.entries candidate).length <
      config.maxCandidates := by
    omega
  obtain ⟨entries, outcome, sorted, perm⟩ :=
    BoundedOrderedSet.tryInsert_of_absent removed.sorted
      (show lookup Bond.owner _ (Bond.mk candidate total).owner = none from absent) room
  have length := perm.length_eq
  simp only [List.length_cons] at length
  have refreshed := removed.inserted sorted (by omega) perm
  simp only [Function.update_idem] at refreshed
  simp only [updateActive, ends_bind, ends_read, ends_require, ends_write,
    BoundedOrderedSet.remove_eq holds.sorted, Bond.fromOwner, outcome, Option.some.injEq,
    reduceCtorEq, false_implies, and_true]
  rintro _ rfl
  exact ⟨_, rfl, refreshed⟩

/-! ## The metadata in hand -/

/-- The totals of the stored candidates. -/
def activeTotals (candidateInfo : StorageMap AccountId CandidateMetadata)
    (account : AccountId) : Option Nat :=
  activeTotal (candidateInfo.get account)

/-- The pool agrees with the stored candidates, except that `candidate` counts as
described by `info`. -/
def Pooled (config : Config AccountId Native) (candidate : AccountId)
    (info : Option CandidateMetadata) (stakes : Stakes AccountId Native) : Prop :=
  PoolHolds config stakes.candidatePool
    (Function.update (activeTotals stakes.candidateInfo) candidate (activeTotal info))

theorem activeTotals_put (candidateInfo : StorageMap AccountId CandidateMetadata)
    (candidate : AccountId) (info : Option CandidateMetadata) :
    activeTotals (candidateInfo.put candidate info) =
      Function.update (activeTotals candidateInfo) candidate (activeTotal info) := by
  funext account
  rw [activeTotals, StorageMap.get_put, Function.update_apply]
  split <;> rfl

theorem update_activeTotals (candidateInfo : StorageMap AccountId CandidateMetadata)
    (candidate : AccountId) :
    Function.update (activeTotals candidateInfo) candidate
      (activeTotal (candidateInfo.get candidate)) = activeTotals candidateInfo :=
  Function.update_eq_self _ _

/-- The pool of a stored state, seen from one of its candidates. -/
theorem PoolHolds.pooled {stakes : Stakes AccountId Native} {candidate : AccountId}
    {info : Option CandidateMetadata}
    (holds : PoolHolds config stakes.candidatePool (activeTotals stakes.candidateInfo))
    (stored : stakes.candidateInfo.get candidate = info) :
    Pooled config candidate info stakes := by
  subst stored
  unfold Pooled
  rwa [update_activeTotals]

theorem PoolHolds.store {pool : BoundedOrderedSet (Bond AccountId)}
    {candidateInfo : StorageMap AccountId CandidateMetadata} {candidate : AccountId}
    {info : CandidateMetadata} {total : Option Nat}
    (holds : PoolHolds config pool
      (Function.update (activeTotals candidateInfo) candidate total))
    (isTotal : activeTotal (some info) = total) :
    PoolHolds config pool (activeTotals (candidateInfo.insert candidate info)) := by
  rw [← StorageMap.put_some, activeTotals_put, isTotal]
  exact holds

/-! ## Refreshing the lists of one candidate -/

/-- The parts of the metadata that the operations on the lists leave alone. -/
def SameTerms (before after : CandidateMetadata) : Prop :=
  after.status = before.status ∧ after.bond = before.bond ∧ after.request = before.request

section Lists

variable {stakes before : Stakes AccountId Native} {candidate : AccountId}
  {info : CandidateMetadata}

/-- Refreshing the data of the top list keeps the pool in step. -/
theorem ends_resetTopData {topDelegations : Delegations AccountId}
    (pooled : Pooled config candidate (some info) stakes) :
    (info.resetTopData config candidate topDelegations).Ends stakes
      (fun info' after =>
        info' = { info with
          lowestTopDelegationAmount := topDelegations.lowestDelegationAmount
          topCapacity := topDelegations.capacity config.maxTopDelegationsPerCandidate
          totalCounted := info.bond + topDelegations.total } ∧
        ∃ pool, after = { stakes with candidatePool := pool } ∧
          Pooled config candidate (some info') after)
      fun _ _ => False := by
  simp only [CandidateMetadata.resetTopData, ends_bind, ends_ite, ends_pure]
  constructor
  · rintro ⟨_, isActive⟩
    have active : info.isActive = true := isActive
    refine (ends_updateActive pooled ?_).imp ?_
    · simp [activeTotal_of_active active]
    · rintro _ after ⟨pool, rfl, holds⟩
      refine ⟨trivial, pool, rfl, ?_⟩
      rw [Function.update_idem] at holds
      unfold Pooled
      rw [activeTotal_of_active (by exact active)]
      exact holds
  · intro unchanged
    refine ⟨trivial, stakes.candidatePool, rfl, ?_⟩
    unfold Pooled at pooled ⊢
    by_cases active : info.isActive = true
    · have equal : info.totalCounted = info.bond + topDelegations.total := by
        by_contra different
        exact unchanged ⟨different, active⟩
      rw [activeTotal_of_active active, equal] at pooled
      rw [activeTotal_of_active (by exact active)]
      exact pooled
    · rw [activeTotal_of_not_active active] at pooled
      rw [activeTotal_of_not_active (by exact active)]
      exact pooled

end Lists

end Popsicle
