import Popsicle.Steps
import Popsicle.Preservation

/-!
# Records, lists and pool in every reachable state

The delegators' records, the two lists of every candidate and the pool describe
the same delegations, as long as candidates leave cleanly.
-/

namespace Popsicle

open Foundation Exec Keyed Ranked

variable {AccountId Native : Type} [LinearOrder AccountId] {config : Config AccountId Native}
  {spec : ChainSpec AccountId Native} {state : State AccountId Native}

/-- A withdrawal is not the exit of a candidate that is not clean. -/
def CleanWithdrawal (stakes : Stakes AccountId Native) : Withdrawal AccountId → Prop
  | .exit candidate => CleanExit stakes.delegatorState candidate
  | .decrease _ _ | .schedules => True

/-- Candidates only leave by clean exits. -/
def LeavesCleanly (state : State AccountId Native) (action : Action AccountId Native) : Prop :=
  Allows CleanWithdrawal state action

theorem ChainSpec.agrees_initial (spec : ChainSpec AccountId Native) :
    Agrees config spec.initial.stakes where
  records :=
    { kept := by simp [initial]
      lessTotal := by simp [initial]
      distinct := fun _ => List.nodup_nil
      fits := by simp [initial, requestsOf, findRequest] }
  lists :=
    { listed := by simp [initial]
      absent := fun _ _ _ => rfl }

theorem keeps_agrees {signs : AccountId → Prop} :
    Keeps config CleanWithdrawal signs (Agrees config) :=
  fun _ _ sound agrees settles => agrees.effect sound settles.1 fun _ => id

theorem Reached.agrees {admits : State AccountId Native → Action AccountId Native → Prop}
    (reached : Reached config spec admits state)
    (clean : ∀ state action, admits state action → LeavesCleanly state action) :
    Agrees config state.stakes :=
  (reached.stakes clean keeps_agrees spec.agrees_initial (fun _ _ => trivial)
    fun _ _ => trivial).2

theorem keeps_agrees_of_positive {signs : AccountId → Prop} (positive : 1 ≤ config.minDelegation) :
    Keeps config (fun _ _ => True) signs (Agrees config) :=
  fun _ _ sound agrees settles => agrees.effect sound settles.1
    fun candidate _ => agrees.records.cleanExit positive candidate

/-- With a positive minimum everything agrees in every reachable state. -/
theorem Reached.agrees_of_positive
    {admits : State AccountId Native → Action AccountId Native → Prop}
    (reached : Reached config spec admits state) (positive : 1 ≤ config.minDelegation) :
    Agrees config state.stakes :=
  (reached.stakes (fun state action _ => allows_any state action)
    (keeps_agrees_of_positive positive) spec.agrees_initial (fun _ _ => trivial)
    fun _ _ => trivial).2

/-! ## Delegations -/

section Delegations

variable {stakes : Stakes AccountId Native} {candidate delegator : AccountId} {amount : Nat}

/-- The record of a delegator contains a delegation. -/
def InRecord (stakes : Stakes AccountId Native) (delegator candidate : AccountId)
    (amount : Nat) : Prop :=
  ∃ state, stakes.delegatorState.get delegator = some state ∧
    { owner := candidate, amount } ∈ state.delegations.entries

/-- One of the two maps of lists contains a delegation. -/
def InList (lists : StorageMap AccountId (Delegations AccountId))
    (delegator candidate : AccountId) (amount : Nat) : Prop :=
  ∃ list, lists.get candidate = some list ∧ { owner := delegator, amount } ∈ list.delegations

/-- What all pending requests of a delegator amount to. -/
def pendingRequests (stakes : Stakes AccountId Native) (delegator : AccountId) : Nat :=
  stakes.delegationScheduledRequests.sum fun _ requests =>
    ((select ScheduledRequest.delegator requests delegator).map
      fun request => request.action.amount).sum

/-- The records of the delegators, the requests and the lists of the candidates
describe the same delegations. -/
structure DelegationsAgree (config : Config AccountId Native)
    (stakes : Stakes AccountId Native) : Prop where
  sides : ∀ delegator candidate amount, InRecord stakes delegator candidate amount ↔
    Xor (InList stakes.topDelegations delegator candidate amount)
      (InList stakes.bottomDelegations delegator candidate amount)
  exist : ∀ delegator, (stakes.delegatorState.get delegator).isSome = true ↔
    ∃ candidate amount, InRecord stakes delegator candidate amount
  totals : ∀ delegator state, stakes.delegatorState.get delegator = some state →
    state.total = Delegations.sumAmounts state.delegations.entries ∧
      ∀ bond ∈ state.delegations.entries, config.minDelegation ≤ bond.amount
  single : ∀ candidate, ((stakes.requests candidate).map ScheduledRequest.delegator).Nodup
  fit : ∀ candidate, ∀ request ∈ stakes.requests candidate, ∃ bonded,
    InRecord stakes request.delegator candidate bonded ∧ request.action.Fits config bonded
  lessTotals : ∀ delegator state, stakes.delegatorState.get delegator = some state →
    state.lessTotal = pendingRequests stakes delegator
  apart : ∀ account, (stakes.delegatorState.get account).isSome = true →
    stakes.candidateInfo.get account = none

theorem inRecord_iff (sound : Sound config stakes) :
    InRecord stakes delegator candidate amount ↔
      booked stakes.delegatorState delegator candidate = some amount := by
  rw [booked_eq_some]
  refine exists_congr fun state => and_congr_right fun stored => ?_
  have distinct := (sound.records delegator state stored).sorted.distinct
  rw [Delegator.getBondAmount_eq_some, distinct.lookup_eq_some]
  simp

/-- The two lists of a candidate have no delegation in common. -/
theorem Agrees.xor_inList (agrees : Agrees config stakes) (sound : Sound config stakes) :
    Xor (InList stakes.topDelegations delegator candidate amount)
        (InList stakes.bottomDelegations delegator candidate amount) ↔
      booked stakes.delegatorState delegator candidate = some amount := by
  cases isInfo : stakes.candidateInfo.get candidate with
  | none =>
      have hasTop := sound.top candidate
      have hasBottom := sound.bottom candidate
      rw [isInfo, Option.isSome_none, Option.isSome_eq_false_iff, Option.isNone_iff_eq_none]
        at hasTop hasBottom
      simp [InList, Xor, hasTop, hasBottom, agrees.lists.absent candidate isInfo delegator]
  | some info =>
      obtain ⟨top, bottom, storedTop, storedBottom⟩ := sound.exists_lists isInfo
      obtain ⟨listed, amounts⟩ := agrees.listed isInfo storedTop storedBottom
      have inTable : booked stakes.delegatorState delegator candidate = some amount ↔
          { owner := delegator, amount } ∈ table top bottom := by
        constructor
        · intro isBooked
          exact mem_of_lookup (agrees.lookup_table isInfo storedTop storedBottom isBooked)
        · exact agrees.booked_of_mem isInfo storedTop storedBottom
      have apart : ¬(({ owner := delegator, amount } : Bond AccountId) ∈ top.delegations ∧
          ({ owner := delegator, amount } : Bond AccountId) ∈ bottom.delegations) := by
        rintro ⟨inTop, inBottom⟩
        have disjoint := (List.nodup_append.mp
          (by simpa [Distinct, table] using listed.distinct)).2.2
        exact disjoint delegator (List.mem_map_of_mem inTop) delegator
          (List.mem_map_of_mem inBottom) rfl
      rw [inTable, table, List.mem_append]
      simp only [InList, storedTop, storedBottom, Option.some.injEq, exists_eq_left', Xor]
      tauto

theorem pendingAmount_eq_sum {requests : List (ScheduledRequest AccountId)}
    (distinct : Distinct ScheduledRequest.delegator requests) (delegator : AccountId) :
    pendingAmount requests delegator =
      ((select ScheduledRequest.delegator requests delegator).map
        fun request => request.action.amount).sum := by
  cases found : findRequest requests delegator with
  | none => rw [pendingAmount_of_none found, select_eq_nil found, List.map_nil, List.sum_nil]
  | some request =>
      rw [pendingAmount_of_find found, distinct.select found, List.map_singleton,
        List.sum_singleton]

theorem Agrees.delegations (agrees : Agrees config stakes) (sound : Sound config stakes) :
    DelegationsAgree config stakes where
  sides delegator candidate amount := by
    rw [inRecord_iff sound, agrees.xor_inList sound]
  exist delegator := by
    constructor
    · intro isSome
      obtain ⟨state, stored⟩ := Option.isSome_iff_exists.mp isSome
      obtain ⟨bond, member⟩ := List.exists_mem_of_ne_nil _
        (agrees.records.kept delegator state stored).nonempty
      exact ⟨bond.owner, bond.amount, state, stored, member⟩
    · rintro ⟨candidate, amount, state, stored, _⟩
      simp [stored]
  totals delegator state stored :=
    ⟨(sound.records delegator state stored).total,
      (agrees.records.kept delegator state stored).atLeast⟩
  single candidate := agrees.records.distinct candidate
  fit candidate request member := by
    have found := (agrees.records.distinct candidate).lookup_of_mem member
    obtain ⟨bonded, isBooked, fits⟩ := agrees.records.fits candidate request.delegator request
      found
    exact ⟨bonded, (inRecord_iff sound).mpr isBooked, fits⟩
  lessTotals delegator state stored := by
    rw [agrees.records.lessTotal delegator state stored]
    refine StorageMap.sum_congr fun candidate requests isStored => ?_
    have distinct := agrees.records.distinct candidate
    rw [requestsOf, isStored] at distinct
    exact pendingAmount_eq_sum distinct delegator
  apart account isSome := by
    obtain ⟨state, stored⟩ := Option.isSome_iff_exists.mp isSome
    exact sound.apart account state stored

/-- There is room for a request of every delegator without one. -/
theorem Agrees.room (agrees : Agrees config stakes) (sound : Sound config stakes)
    (recorded : booked stakes.delegatorState delegator candidate = some amount)
    (absent : findRequest (stakes.requests candidate) delegator = none) :
    (stakes.requests candidate).length <
      config.maxTopDelegationsPerCandidate + config.maxBottomDelegationsPerCandidate := by
  have isCandidate : stakes.candidateInfo.get candidate ≠ none := by
    intro missing
    rw [agrees.lists.absent candidate missing] at recorded
    cases recorded
  obtain ⟨info, stored⟩ := Option.ne_none_iff_exists'.mp isCandidate
  obtain ⟨top, bottom, storedTop, storedBottom⟩ := sound.exists_lists stored
  obtain ⟨listed, _⟩ := agrees.listed stored storedTop storedBottom
  have inTable : ∀ {account amount},
      booked stakes.delegatorState account candidate = some amount →
        account ∈ (table top bottom).map Bond.owner := by
    intro account amount isBooked
    have member := mem_of_lookup (agrees.lookup_table stored storedTop storedBottom isBooked)
    exact List.mem_map_of_mem member
  have senders : (delegator :: (stakes.requests candidate).map ScheduledRequest.delegator) ⊆
      (table top bottom).map Bond.owner := by
    intro account member
    rcases List.mem_cons.mp member with rfl | isSender
    · exact inTable recorded
    · obtain ⟨request, scheduled, rfl⟩ := List.mem_map.mp isSender
      have found := (agrees.records.distinct candidate).lookup_of_mem scheduled
      obtain ⟨bonded, isBooked, _⟩ := agrees.records.fits candidate _ request found
      exact inTable isBooked
  have nodup : (delegator :: (stakes.requests candidate).map ScheduledRequest.delegator).Nodup := by
    refine List.nodup_cons.mpr ⟨fun isSender => ?_, agrees.records.distinct candidate⟩
    obtain ⟨request, scheduled, isDelegator⟩ := List.mem_map.mp isSender
    exact lookup_eq_none.mp absent request scheduled isDelegator
  have length := (List.subperm_of_subset nodup senders).length_le
  have topLength := listed.tiers.topLength
  have bottomLength := listed.tiers.bottomLength
  simp only [List.length_cons, List.length_map, table, List.length_append] at length
  omega

/-- Scheduling never finds the list of requests at its capacity. -/
def NeverAtCapacity (config : Config AccountId Native) (stakes : Stakes AccountId Native) : Prop :=
  ∀ (round : RoundInfo) (candidate delegator : AccountId),
    (delegationScheduleRevoke config round candidate delegator stakes).1 ≠
        .error (.staking .exceedMaxDelegationsPerDelegator) ∧
      ∀ decreaseAmount,
        (delegationScheduleBondDecrease config round candidate delegator decreaseAmount stakes).1 ≠
          .error (.staking .exceedMaxDelegationsPerDelegator)

theorem ne_error_of_ends {σ α : Type} {body : Exec σ Fault α} {before : σ} {unwanted : Fault}
    (ends : body.Ends before (fun _ _ => True) fun fault _ => fault ≠ unwanted) :
    (body before).1 ≠ .error unwanted := by
  unfold Ends at ends
  split at ends
  next equation => simp [equation]
  next fault after equation => simpa [equation] using ends

theorem Agrees.neverAtCapacity (agrees : Agrees config stakes) (sound : Sound config stakes) :
    NeverAtCapacity config stakes := by
  intro round candidate delegator
  constructor
  · refine ne_error_of_ends ?_
    simp only [delegationScheduleRevoke, readDelegator, pushRequest, storeRequests,
      storeDelegator, ends_bind, ends_read, ends_require, ends_ensure, ends_pure, ends_write]
    refine ⟨fun state stored => ⟨fun absent => ⟨fun amount recorded => ⟨fun _ => trivial,
      fun full => ?_⟩, fun _ => by simp⟩, fun _ => by simp⟩, fun _ => by simp⟩
    exact absurd (agrees.room sound (booked_eq_some.mpr ⟨state, stored, recorded⟩) absent) full
  · intro decreaseAmount
    refine ne_error_of_ends ?_
    simp only [delegationScheduleBondDecrease, readDelegator, pushRequest, storeRequests,
      storeDelegator, ends_bind, ends_read, ends_require, ends_ensure, ends_pure, ends_write]
    refine ⟨fun state stored => ⟨fun absent => ⟨fun amount recorded => ⟨fun _ => ⟨fun _ =>
      ⟨fun _ => ⟨fun _ => trivial, fun full => ?_⟩, fun _ => by simp⟩, fun _ => by simp⟩,
      fun _ => by simp⟩, fun _ => by simp⟩, fun _ => by simp⟩, fun _ => by simp⟩
    exact absurd (agrees.room sound (booked_eq_some.mpr ⟨state, stored, recorded⟩) absent) full

end Delegations

/-- Delegator records and candidate records agree in every reachable state. -/
theorem delegations_agree (positive : 1 ≤ config.minDelegation)
    (reachable : Reachable config spec state) :
    DelegationsAgree config state.stakes ∧ NeverAtCapacity config state.stakes := by
  have agrees := reachable.agrees_of_positive positive
  exact ⟨agrees.delegations reachable.sound, agrees.neverAtCapacity reachable.sound⟩

/-- A run with a kick by the last of nine delegators, a pending revoke and a pending
decrease. -/
def crowdedRun : List (Action Nat (Nat → Nat)) :=
  [.nextBlock 0,
    .extrinsic (.signed 11) (.delegate 1 9 8 0),
    .extrinsic (.signed 10) (.scheduleRevokeDelegation 1),
    .extrinsic (.signed 9) (.scheduleDelegatorBondLess 1 1)]

/-- A genesis with eight delegations to one candidate. -/
def crowdedGenesis : ChainSpec Nat (Nat → Nat) :=
  mockGenesis [1] [(3, 1, 3), (4, 1, 4), (5, 1, 5), (6, 1, 6), (7, 1, 7), (8, 1, 8), (9, 1, 9),
    (10, 1, 10)]

theorem delegations_agree_crowded :
    ∃ state, Reachable mockRuntime crowdedGenesis state ∧
      (state.stakes.delegatorState.get 3).isSome = false ∧
      DelegationsAgree mockRuntime state.stakes ∧ NeverAtCapacity mockRuntime state.stakes := by
  obtain ⟨state, reachable, kicked⟩ := Reached.exists_of_played
    (show (played mockRuntime crowdedGenesis crowdedRun).map
      (fun state => (state.stakes.delegatorState.get 3).isSome) = some false by decide +kernel)
  exact ⟨state, reachable, kicked, delegations_agree (by decide) reachable⟩

/-! ## Lists -/

section Lists

variable {stakes : Stakes AccountId Native} {candidate : AccountId} {info : CandidateMetadata}
  {top bottom : Delegations AccountId}

/-- The two lists of a candidate are one ranked list, and the metadata is what can be
recomputed from them. -/
structure RankedLists (config : Config AccountId Native) (info : CandidateMetadata)
    (top bottom : Delegations AccountId) : Prop where
  topSorted : top.delegations.Pairwise fun high low => low.amount ≤ high.amount
  bottomSorted : bottom.delegations.Pairwise fun high low => low.amount ≤ high.amount
  topLength : top.delegations.length ≤ config.maxTopDelegationsPerCandidate
  bottomLength : bottom.delegations.length ≤ config.maxBottomDelegationsPerCandidate
  full : bottom.delegations ≠ [] →
    top.delegations.length = config.maxTopDelegationsPerCandidate
  ranked : ∀ high ∈ top.delegations, ∀ low ∈ bottom.delegations, low.amount ≤ high.amount
  distinct : (top.delegations.map Bond.owner ++ bottom.delegations.map Bond.owner).Nodup
  delegationCount : info.delegationCount = top.delegations.length + bottom.delegations.length
  lowestTop : info.lowestTopDelegationAmount = top.lowestDelegationAmount
  highestBottom : info.highestBottomDelegationAmount = bottom.highestDelegationAmount
  lowestBottom : info.lowestBottomDelegationAmount = bottom.lowestDelegationAmount
  topCapacity : info.topCapacity = top.capacity config.maxTopDelegationsPerCandidate
  bottomCapacity : info.bottomCapacity =
    bottom.capacity config.maxBottomDelegationsPerCandidate

/-- Every candidate has two lists that are one ranked list. -/
def ListsRanked (config : Config AccountId Native) (stakes : Stakes AccountId Native) : Prop :=
  ∀ candidate info, stakes.candidateInfo.get candidate = some info →
    ∃ top bottom, stakes.topDelegations.get candidate = some top ∧
      stakes.bottomDelegations.get candidate = some bottom ∧ RankedLists config info top bottom

omit [LinearOrder AccountId] in
theorem Listed.ranked (listed : Listed config info top bottom) (roomy : Roomy config) :
    RankedLists config info top bottom where
  topSorted := listed.topSorted
  bottomSorted := listed.bottomSorted
  topLength := listed.tiers.topLength
  bottomLength := listed.tiers.bottomLength
  full := listed.tiers.full
  ranked _ inTop _ inBottom := listed.tiers.bottom_le_top inTop inBottom
  distinct := by simpa [Distinct, table] using listed.distinct
  delegationCount := by
    rw [listed.delegationCount, table, List.length_append]
  lowestTop := listed.cachedTop.1
  highestBottom := listed.cachedBottom.2.1
  lowestBottom := listed.cachedBottom.1
  topCapacity := by
    rw [listed.cachedTop.2.1, Delegations.cachedCapacity_eq roomy.1]
  bottomCapacity := by
    rw [listed.cachedBottom.2.2, Delegations.cachedCapacity_eq roomy.2]

theorem Agrees.listsRanked (agrees : Agrees config stakes) (roomy : Roomy config) :
    ListsRanked config stakes := by
  intro candidate info stored
  obtain ⟨top, bottom, storedTop, storedBottom, listed, _⟩ :=
    agrees.lists.listed candidate info stored
  exact ⟨top, bottom, storedTop, storedBottom, listed.ranked roomy⟩

end Lists

/-- Top and bottom are one ranked list in every state reached by clean exits. -/
theorem lists_ranked (roomy : Roomy config) (reached : Reached config spec LeavesCleanly state) :
    ListsRanked config state.stakes :=
  (reached.agrees fun _ _ => id).listsRanked roomy

theorem allows_crowdedRun
    {allowed : Stakes Nat (Nat → Nat) → Withdrawal Nat → Prop}
    (schedules : ∀ stakes, allowed stakes .schedules) (state : State Nat (Nat → Nat)) :
    ∀ action ∈ crowdedRun, Allows allowed state action := by
  intro action member
  simp only [crowdedRun, List.mem_cons, List.not_mem_nil, or_false] at member
  rcases member with rfl | rfl | rfl | rfl
  · trivial
  · trivial
  · exact schedules state.stakes
  · exact schedules state.stakes

/-- The state after a crowded run is reached if withdrawals may be scheduled. -/
theorem reached_crowdedRun (allowed : Stakes Nat (Nat → Nat) → Withdrawal Nat → Prop)
    (schedules : ∀ stakes, allowed stakes .schedules) :
    ∃ state, Reached mockRuntime crowdedGenesis (Allows allowed) state := by
  obtain ⟨state, isPlayed⟩ := Option.isSome_iff_exists.mp
    (show (played mockRuntime crowdedGenesis crowdedRun).isSome = true by decide +kernel)
  exact ⟨state, Reached.of_played isPlayed
    (admitted_of_forall fun state => allows_crowdedRun schedules state)⟩

theorem lists_ranked_crowded :
    ∃ state, Reached mockRuntime crowdedGenesis LeavesCleanly state ∧
      ListsRanked mockRuntime state.stakes := by
  obtain ⟨state, reached⟩ := reached_crowdedRun CleanWithdrawal fun _ => trivial
  exact ⟨state, reached, lists_ranked ⟨by decide, by decide⟩ reached⟩

/-- The mock runtime with no minimum for delegations. -/
def zeroMinimum : Config Nat (Nat → Nat) := { mockRuntime with minDelegation := 0 }

/-- The account of the pallet is given some BTC, or it could not receive nothing.  A
delegator with delegations of nothing to both candidates loses its record when one of
them leaves, and delegates to the other again. -/
def uncleanRun : List (Action Nat (Nat → Nat)) :=
  [.nextBlock 0,
    .moveBtc 9 0 1,
    .extrinsic (.signed 3) (.delegate 1 0 0 0),
    .extrinsic (.signed 3) (.delegate 2 0 0 1),
    .extrinsic (.signed 1) (.scheduleLeaveCandidates 2)] ++
  List.replicate 9 (.nextBlock 0) ++
  [.extrinsic (.signed 4) (.executeLeaveCandidates 1 1),
    .extrinsic (.signed 3) (.delegate 2 5 1 0)]

/-- After an unclean exit an owner is in a top list twice. -/
theorem lists_not_ranked :
    ∃ state, Reachable zeroMinimum (mockGenesis [1, 2] []) state ∧
      ¬ListsRanked zeroMinimum state.stakes := by
  obtain ⟨state, reachable, observed⟩ := Reached.exists_of_played
    (show (played zeroMinimum (mockGenesis [1, 2] []) uncleanRun).map
      (fun state => ((state.stakes.candidateInfo.get 2).isSome,
        (state.stakes.topDelegations.get 2).map fun top => top.delegations.map Bond.owner)) =
      some (true, some [3, 3]) by decide +kernel)
  rw [Prod.mk.injEq] at observed
  obtain ⟨isCandidate, owners⟩ := observed
  refine ⟨state, reachable, fun ranked => ?_⟩
  obtain ⟨info, stored⟩ := Option.isSome_iff_exists.mp isCandidate
  obtain ⟨top, bottom, storedTop, _, lists⟩ := ranked 2 info stored
  rw [storedTop, Option.map_some, Option.some.injEq] at owners
  have distinct := lists.distinct
  rw [owners] at distinct
  simp at distinct

/-! ## Pool -/

section Pool

variable {stakes : Stakes AccountId Native} {candidate : AccountId} {info : CandidateMetadata}
  {top bottom : Delegations AccountId}

/-- The amounts that the records of all delegators say are delegated to a candidate. -/
def delegatedTo (stakes : Stakes AccountId Native) (candidate : AccountId) : Multiset Nat :=
  stakes.delegatorState.keys.val.filterMap fun delegator =>
    booked stakes.delegatorState delegator candidate

/-- The pool is exactly the active candidates with their true backing. -/
structure PoolExact (config : Config AccountId Native) (stakes : Stakes AccountId Native) :
    Prop where
  sorted : (stakes.candidatePool.entries.map Bond.owner).Pairwise (· < ·)
  members : ∀ account, account ∈ stakes.candidatePool.entries.map Bond.owner ↔
    ∃ info, stakes.candidateInfo.get account = some info ∧ info.status = .active
  amounts : ∀ bond ∈ stakes.candidatePool.entries, ∃ info,
    stakes.candidateInfo.get bond.owner = some info ∧ bond.amount = info.totalCounted
  backing : ∀ candidate info, stakes.candidateInfo.get candidate = some info →
    info.totalCounted = info.bond +
      Ranked.sumLargest config.maxTopDelegationsPerCandidate (delegatedTo stakes candidate)

theorem Agrees.delegatedTo_eq (agrees : Agrees config stakes)
    (stored : stakes.candidateInfo.get candidate = some info)
    (storedTop : stakes.topDelegations.get candidate = some top)
    (storedBottom : stakes.bottomDelegations.get candidate = some bottom) :
    delegatedTo stakes candidate =
      Multiset.ofList ((table top bottom).map Bond.amount) := by
  obtain ⟨listed, _⟩ := agrees.listed stored storedTop storedBottom
  let amountOf := fun delegator => booked stakes.delegatorState delegator candidate
  have amounts : (table top bottom).map Bond.amount =
      ((table top bottom).map Bond.owner).filterMap amountOf := by
    rw [List.filterMap_map, ← List.filterMap_eq_map]
    refine List.filterMap_congr fun bond member => ?_
    exact (agrees.booked_of_mem stored storedTop storedBottom member).symm
  have owners :
      stakes.delegatorState.keys.val.filter (fun delegator => (amountOf delegator).isSome) =
        Multiset.ofList ((table top bottom).map Bond.owner) := by
    refine (Multiset.Nodup.ext (stakes.delegatorState.keys.nodup.filter _)
      (Multiset.coe_nodup.mpr listed.distinct)).mpr fun delegator => ?_
    rw [Multiset.mem_filter, Finset.mem_val, StorageMap.mem_keys, Multiset.mem_coe]
    constructor
    · rintro ⟨_, isBooked⟩
      obtain ⟨amount, recorded⟩ := Option.isSome_iff_exists.mp isBooked
      have found := agrees.lookup_table stored storedTop storedBottom recorded
      exact List.mem_map_of_mem (mem_of_lookup found)
    · intro isOwner
      obtain ⟨bond, member, rfl⟩ := List.mem_map.mp isOwner
      have recorded := agrees.booked_of_mem stored storedTop storedBottom member
      obtain ⟨state, isStored, _⟩ := booked_eq_some.mp recorded
      exact ⟨by simp [isStored], by simp [amountOf, recorded]⟩
  have unbooked : stakes.delegatorState.keys.val.filterMap amountOf =
      (stakes.delegatorState.keys.val.filter
        fun delegator => (amountOf delegator).isSome).filterMap amountOf := by
    rw [Multiset.filterMap_filter]
    congr 1
    funext delegator
    cases amountOf delegator <;> rfl
  rw [delegatedTo, unbooked, owners, amounts, Multiset.filterMap_coe]

omit [LinearOrder AccountId] in
theorem Listed.take_table (listed : Listed config info top bottom) :
    (table top bottom).take config.maxTopDelegationsPerCandidate = top.delegations := by
  have topLength := listed.tiers.topLength
  by_cases none : bottom.delegations = []
  · rw [table, none, List.append_nil, List.take_of_length_le topLength]
  · rw [table, ← listed.tiers.full none, List.take_left]

/-- The pool is exact and the counted totals are the true backing. -/
theorem Agrees.poolExact (agrees : Agrees config stakes) (sound : Sound config stakes) :
    PoolExact config stakes where
  sorted := List.pairwise_map.mpr sound.pool.sorted
  members account := by
    rw [← lookup_isSome, sound.pool.isSome_lookup, activeTotals]
    cases isInfo : stakes.candidateInfo.get account with
    | none => simp [activeTotal]
    | some info =>
        cases status : info.status <;>
          simp [activeTotal, CandidateMetadata.isActive, status]
  amounts bond member := by
    have amount : activeTotals stakes.candidateInfo bond.owner = some bond.amount := by
      rw [← sound.pool.amounts, poolAmount, sound.pool.sorted.distinct.lookup_of_mem member]
      rfl
    rw [activeTotals, activeTotal, Option.bind_eq_some_iff] at amount
    obtain ⟨info, stored, counted⟩ := amount
    refine ⟨info, stored, ?_⟩
    split at counted
    next => exact (Option.some.inj counted).symm
    next => cases counted
  backing candidate info stored := by
    obtain ⟨top, bottom, storedTop, storedBottom⟩ := sound.exists_lists stored
    obtain ⟨listed, _⟩ := agrees.listed stored storedTop storedBottom
    have descending : Descending Bond.amount (table top bottom) := listed.tiers.descending
    rw [agrees.delegatedTo_eq stored storedTop storedBottom, descending.sumLargest,
      listed.take_table, listed.cachedTop.2.2, listed.topTotal]
    rfl

end Pool

/-- The pool is exact in every state reached by clean exits. -/
theorem pool_exact (reached : Reached config spec LeavesCleanly state) :
    PoolExact config state.stakes :=
  (reached.agrees fun _ _ => id).poolExact reached.sound

theorem pool_exact_crowded :
    ∃ state, Reached mockRuntime crowdedGenesis LeavesCleanly state ∧
      PoolExact mockRuntime state.stakes := by
  obtain ⟨state, reached⟩ := reached_crowdedRun CleanWithdrawal fun _ => trivial
  exact ⟨state, reached, pool_exact reached⟩

/-- After an unclean exit the delegator revokes its only recorded delegation. -/
def revokedRun : List (Action Nat (Nat → Nat)) :=
  uncleanRun ++ [.extrinsic (.signed 3) (.scheduleRevokeDelegation 2)] ++
  List.replicate 10 (.nextBlock 0) ++
  [.extrinsic (.signed 3) (.executeDelegationRequest 3 2)]

/-- After an unclean exit a candidate counts a delegation that nobody has. -/
theorem pool_not_exact :
    ∃ state, Reachable zeroMinimum (mockGenesis [1, 2] []) state ∧
      ¬PoolExact zeroMinimum state.stakes := by
  obtain ⟨state, reachable, observed⟩ := Reached.exists_of_played
    (show (played zeroMinimum (mockGenesis [1, 2] []) revokedRun).map
      (fun state => ((state.stakes.candidateInfo.get 2).map fun info =>
        (info.bond, info.totalCounted), state.stakes.delegatorState.keys)) =
      some (some (0, 5), ∅) by decide +kernel)
  rw [Prod.mk.injEq, Option.map_eq_some_iff] at observed
  obtain ⟨⟨info, stored, amounts⟩, nobody⟩ := observed
  rw [Prod.mk.injEq] at amounts
  refine ⟨state, reachable, fun exact => ?_⟩
  have backing := exact.backing 2 info stored
  rw [delegatedTo, nobody, amounts.1, amounts.2] at backing
  simp [sumLargest] at backing

end Popsicle
