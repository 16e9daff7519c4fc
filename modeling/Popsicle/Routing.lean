import Popsicle.Consistency

/-!
# Searching the two lists

To change a delegation the pallet compares its recorded amount with two cached amounts
and goes to the list that must hold it.  The reference looks the delegator up in the top
list and then in the bottom list.  They agree wherever the lists are well kept and the
records agree with them.
-/

namespace Popsicle

open Foundation Exec Keyed

variable {AccountId Native : Type} [LinearOrder AccountId] {config : Config AccountId Native}

namespace CandidateMetadata

/-- The reference: operate on the list in which the delegator is found, the top first. -/
def searchLists {α : Type} (candidate delegator : AccountId)
    (onTop onBottom : StakesM AccountId Native α) : StakesM AccountId Native α := do
  let topDelegations ← readTop candidate (.panic .topDelegationsExist)
  if (lookup Bond.owner topDelegations.delegations delegator).isSome = true then onTop
  else do
    let bottomDelegations ← readBottom candidate (.panic .bottomDelegationsExist)
    if (lookup Bond.owner bottomDelegations.delegations delegator).isSome = true then onBottom
    else fail (.staking .delegationDNE)

end CandidateMetadata

/-- A run does the same as its reference, and finds the delegation. -/
structure Routes {α : Type} (routed reference : StakesM AccountId Native α)
    (stakes : Stakes AccountId Native) : Prop where
  same : routed stakes = reference stakes
  found : (routed stakes).1 ≠ .error (.staking .delegationDNE)

/-- Every recorded delegation is removed, increased and decreased as if the delegator had
been looked up in both lists. -/
structure RoutesAll (config : Config AccountId Native) (stakes : Stakes AccountId Native)
    (candidate delegator : AccountId) (info : CandidateMetadata) (amount : Nat) : Prop where
  removes : Routes (info.rmDelegationIfExists config candidate delegator amount)
    (CandidateMetadata.searchLists candidate delegator
      (info.rmTopDelegation config candidate delegator)
      (info.rmBottomDelegation config candidate delegator)) stakes
  increases : ∀ more, Routes (info.increaseDelegation config candidate delegator amount more)
    (CandidateMetadata.searchLists candidate delegator
      (info.increaseTopDelegation config candidate delegator more)
      (info.increaseBottomDelegation config candidate delegator amount more)) stakes
  decreases : ∀ less, less < amount →
    Routes (info.decreaseDelegation config candidate delegator amount less)
      (CandidateMetadata.searchLists candidate delegator
        (info.decreaseTopDelegation config candidate delegator amount less)
        (info.decreaseBottomDelegation config candidate delegator less)) stakes

section Lists

variable {stakes : Stakes AccountId Native} {candidate delegator : AccountId}
  {info : CandidateMetadata} {top bottom : Delegations AccountId} {bond : Bond AccountId}

/-- An operation on one list ends with `DelegationDNE`, without any effect, if and only if
the delegator is not in the list. -/
def Finds {α : Type} (operation : StakesM AccountId Native α) (entries : List (Bond AccountId))
    (delegator : AccountId) (stakes : Stakes AccountId Native) : Prop :=
  operation.Ends stakes (fun _ _ => lookup Bond.owner entries delegator ≠ none)
    fun fault after =>
      (lookup Bond.owner entries delegator = none ∧ fault = .staking .delegationDNE ∧
        after = stakes) ∨
      (lookup Bond.owner entries delegator ≠ none ∧ fault ≠ .staking .delegationDNE)

theorem Finds.missing {α : Type} {operation : StakesM AccountId Native α}
    {entries : List (Bond AccountId)} (finds : Finds operation entries delegator stakes)
    (absent : lookup Bond.owner entries delegator = none) :
    operation stakes = (.error (.staking .delegationDNE), stakes) := by
  unfold Finds Ends at finds
  split at finds
  next => exact absurd absent finds
  next run =>
    obtain ⟨_, rfl, rfl⟩ | ⟨present, _⟩ := finds
    · exact run
    · exact absurd absent present

theorem Finds.present {α : Type} {operation : StakesM AccountId Native α}
    {entries : List (Bond AccountId)} (finds : Finds operation entries delegator stakes)
    (present : lookup Bond.owner entries delegator ≠ none) :
    (operation stakes).1 ≠ .error (.staking .delegationDNE) := by
  unfold Finds Ends at finds
  split at finds
  next run =>
    rw [run]
    exact nofun
  next run =>
    rw [run]
    obtain ⟨absent, _⟩ | ⟨_, different⟩ := finds
    · exact absurd absent present
    · exact fun same => different (Except.error.inj same)

/-- An attempt on the top list that finds the delegator is the whole attempt. -/
theorem Finds.topElseBottom_present {α : Type} {onTop onBottom : StakesM AccountId Native α}
    {entries : List (Bond AccountId)} (finds : Finds onTop entries delegator stakes)
    (present : lookup Bond.owner entries delegator ≠ none) :
    CandidateMetadata.topElseBottom onTop onBottom stakes = onTop stakes := by
  have different := finds.present present
  simp only [CandidateMetadata.topElseBottom, handle]
  rcases run : onTop stakes with ⟨fault | value, after⟩
  · have notMissing : fault ≠ .staking .delegationDNE := by
      rintro rfl
      rw [run] at different
      exact different rfl
    simp only [if_neg notMissing]
    rfl
  · rfl

/-- An attempt on the top list that does not find the delegator is one on the bottom list. -/
theorem Finds.topElseBottom_missing {α : Type} {onTop onBottom : StakesM AccountId Native α}
    {entries : List (Bond AccountId)} (finds : Finds onTop entries delegator stakes)
    (absent : lookup Bond.owner entries delegator = none) :
    CandidateMetadata.topElseBottom onTop onBottom stakes = onBottom stakes := by
  simp only [CandidateMetadata.topElseBottom, handle, finds.missing absent, if_pos]

theorem searchLists_top {α : Type} {onTop onBottom : StakesM AccountId Native α}
    (storedTop : stakes.topDelegations.get candidate = some top)
    (present : lookup Bond.owner top.delegations delegator ≠ none) :
    CandidateMetadata.searchLists candidate delegator onTop onBottom stakes = onTop stakes := by
  have isPresent := Option.isSome_iff_ne_none.mpr present
  simp [CandidateMetadata.searchLists, CandidateMetadata.readTop, Bind.bind, Exec.bind, Exec.read,
    require, pure, storedTop, isPresent]

theorem searchLists_bottom {α : Type} {onTop onBottom : StakesM AccountId Native α}
    (storedTop : stakes.topDelegations.get candidate = some top)
    (storedBottom : stakes.bottomDelegations.get candidate = some bottom)
    (notTop : lookup Bond.owner top.delegations delegator = none)
    (present : lookup Bond.owner bottom.delegations delegator ≠ none) :
    CandidateMetadata.searchLists candidate delegator onTop onBottom stakes =
      onBottom stakes := by
  have isPresent := Option.isSome_iff_ne_none.mpr present
  simp [CandidateMetadata.searchLists, CandidateMetadata.readTop, CandidateMetadata.readBottom,
    Bind.bind, Exec.bind, Exec.read, require, pure, storedTop, storedBottom, notTop, isPresent]

theorem routes_of_finds {α : Type} {onTop onBottom : StakesM AccountId Native α}
    (storedTop : stakes.topDelegations.get candidate = some top)
    (storedBottom : stakes.bottomDelegations.get candidate = some bottom)
    (findsTop : Finds onTop top.delegations delegator stakes)
    (findsBottom : Finds onBottom bottom.delegations delegator stakes)
    {isTop isTie : Prop} [Decidable isTop] [Decidable isTie]
    (inTop : lookup Bond.owner top.delegations delegator ≠ none → isTop ∨ isTie)
    (notTop : lookup Bond.owner top.delegations delegator = none →
      lookup Bond.owner bottom.delegations delegator ≠ none ∧ ¬isTop) :
    Routes (if isTop then onTop
        else if isTie then CandidateMetadata.topElseBottom onTop onBottom else onBottom)
      (CandidateMetadata.searchLists candidate delegator onTop onBottom) stakes := by
  by_cases absent : lookup Bond.owner top.delegations delegator = none
  · obtain ⟨present, notDefinitely⟩ := notTop absent
    have routed : (if isTop then onTop
        else if isTie then CandidateMetadata.topElseBottom onTop onBottom else onBottom) stakes =
        onBottom stakes := by
      rw [if_neg notDefinitely]
      split
      · exact findsTop.topElseBottom_missing absent
      · rfl
    refine ⟨routed.trans (searchLists_bottom storedTop storedBottom absent present).symm, ?_⟩
    rw [routed]
    exact findsBottom.present present
  · have routed : (if isTop then onTop
        else if isTie then CandidateMetadata.topElseBottom onTop onBottom else onBottom) stakes =
        onTop stakes := by
      rcases inTop absent with definitely | tie
      · rw [if_pos definitely]
      · split
        · rfl
        · exact findsTop.topElseBottom_present absent
    refine ⟨routed.trans (searchLists_top storedTop absent).symm, ?_⟩
    rw [routed]
    exact findsTop.present absent

variable (storedTop : stakes.topDelegations.get candidate = some top)
  (storedBottom : stakes.bottomDelegations.get candidate = some bottom)
  (pooled : Pooled config candidate (some info) stakes)
  (listed : Listed config info top bottom)
include storedTop storedBottom pooled listed

theorem finds_rmTopDelegation :
    Finds (info.rmTopDelegation config candidate delegator) top.delegations delegator stakes := by
  simp only [Finds, CandidateMetadata.rmTopDelegation, CandidateMetadata.readTop,
    CandidateMetadata.readBottom, CandidateMetadata.insertTop, CandidateMetadata.insertBottom,
    ends_bind, ends_read, ends_require, ends_ite, ends_write, ends_pure, storedTop,
    storedBottom, Option.some.injEq, forall_eq', reduceCtorEq, false_implies, and_true,
    listed.tiers.topDistinct.lookupLast, Option.map_eq_none_iff]
  refine ⟨fun amount taken => ?_, fun absent => .inl absent⟩
  have present : lookup Bond.owner top.delegations delegator ≠ none := by
    intro absent
    rw [absent] at taken
    cases taken
  refine ⟨fun _ => ⟨fun first _ => ?_, fun _ => .inr ⟨present, by rintro ⟨⟩⟩⟩, fun _ => ?_⟩
  · exact Ends.mono (ends_resetTopData pooled) (fun _ _ _ => present) fun _ _ => False.elim
  · exact Ends.mono (ends_resetTopData pooled) (fun _ _ _ => present) fun _ _ => False.elim

omit storedTop pooled in
theorem finds_rmBottomDelegation :
    Finds (info.rmBottomDelegation config candidate delegator) bottom.delegations delegator
      stakes := by
  simp only [Finds, CandidateMetadata.rmBottomDelegation, CandidateMetadata.readBottom,
    CandidateMetadata.insertBottom, ends_bind, ends_read, ends_require, ends_write, ends_pure,
    storedBottom, Option.some.injEq, forall_eq', reduceCtorEq, false_implies, and_true,
    listed.tiers.bottomDistinct.lookupLast, Option.map_eq_none_iff]
  refine ⟨fun amount taken absent => ?_, fun absent => .inl absent⟩
  rw [absent] at taken
  cases taken

omit storedBottom listed in
theorem finds_increaseTopDelegation (more : Nat) :
    Finds (info.increaseTopDelegation config candidate delegator more) top.delegations delegator
      stakes := by
  simp only [Finds, CandidateMetadata.increaseTopDelegation, CandidateMetadata.readTop,
    CandidateMetadata.insertTop, ends_bind, ends_read, ends_require, ends_ensure, ends_write,
    ends_pure, storedTop, Option.some.injEq, forall_eq', reduceCtorEq, false_implies, and_true]
  refine ⟨fun present => ?_, fun absent => .inl (by simpa using absent)⟩
  have found := Option.isSome_iff_ne_none.mp present
  exact Ends.mono (ends_resetTopData pooled) (fun _ _ _ => found) fun _ _ => False.elim

theorem finds_increaseBottomDelegation (amount more : Nat) :
    Finds (info.increaseBottomDelegation config candidate delegator amount more)
      bottom.delegations delegator stakes := by
  simp only [Finds, CandidateMetadata.increaseBottomDelegation, CandidateMetadata.readTop,
    CandidateMetadata.readBottom, CandidateMetadata.insertTop, CandidateMetadata.insertBottom,
    ends_bind, ends_read, ends_require, ends_ensure, ends_ite, ends_write, ends_pure,
    storedTop, storedBottom, Option.some.injEq, forall_eq', reduceCtorEq, false_implies, and_true,
    listed.tiers.bottomDistinct.lookupLast]
  refine ⟨fun _ => ⟨fun bond found => ?_, fun absent => .inl absent⟩,
    fun _ => ⟨fun present => Option.isSome_iff_ne_none.mp present,
      fun absent => .inl (by simpa using absent)⟩⟩
  have present : lookup Bond.owner bottom.delegations delegator ≠ none := by
    rw [found]
    exact Option.some_ne_none bond
  refine ⟨fun _ => ⟨fun popped _ => ?_, fun _ => .inr ⟨present, by rintro ⟨⟩⟩⟩, fun _ => ?_⟩
  · exact Ends.mono (ends_resetTopData pooled) (fun _ _ _ => present) fun _ _ => False.elim
  · exact Ends.mono (ends_resetTopData pooled) (fun _ _ _ => present) fun _ _ => False.elim

theorem finds_decreaseTopDelegation (amount less : Nat) :
    Finds (info.decreaseTopDelegation config candidate delegator amount less) top.delegations
      delegator stakes := by
  simp only [Finds, CandidateMetadata.decreaseTopDelegation, CandidateMetadata.readTop,
    CandidateMetadata.readBottom, CandidateMetadata.insertTop, CandidateMetadata.insertBottom,
    ends_bind, ends_read, ends_require, ends_ensure, ends_ite, ends_write, ends_pure,
    storedTop, storedBottom, Option.some.injEq, forall_eq', reduceCtorEq, false_implies, and_true,
    listed.tiers.topDistinct.lookupLast]
  refine ⟨fun _ => ⟨fun bond found => ?_, fun absent => .inl absent⟩,
    fun _ => ⟨fun isSome => ?_, fun absent => .inl (by simpa using absent)⟩⟩
  · have present : lookup Bond.owner top.delegations delegator ≠ none := by
      rw [found]
      exact Option.some_ne_none bond
    refine ⟨fun first _ => ?_, fun _ => .inr ⟨present, by rintro ⟨⟩⟩⟩
    exact Ends.mono (ends_resetTopData pooled) (fun _ _ _ => present) fun _ _ => False.elim
  · have present := Option.isSome_iff_ne_none.mp isSome
    exact Ends.mono (ends_resetTopData pooled) (fun _ _ _ => present) fun _ _ => False.elim

omit storedTop pooled listed in
theorem finds_decreaseBottomDelegation (less : Nat) :
    Finds (info.decreaseBottomDelegation config candidate delegator less) bottom.delegations
      delegator stakes := by
  simp only [Finds, CandidateMetadata.decreaseBottomDelegation, CandidateMetadata.readBottom,
    CandidateMetadata.insertBottom, ends_bind, ends_read, ends_require, ends_ensure, ends_write,
    ends_pure, storedBottom, Option.some.injEq, forall_eq', reduceCtorEq, false_implies, and_true]
  exact ⟨fun present => Option.isSome_iff_ne_none.mp present,
    fun absent => .inl (by simpa using absent)⟩

/-- Where the recorded amount is that of the list, it tells in which list the delegation is. -/
theorem routesAll_of_listed {amount : Nat}
    (found : lookup Bond.owner (table top bottom) delegator = some ⟨delegator, amount⟩) :
    RoutesAll config stakes candidate delegator info amount := by
  have inTop : lookup Bond.owner top.delegations delegator ≠ none →
      info.lowestTopDelegationAmount ≤ amount := by
    intro present
    rcases top_or_bottom found with isTop | ⟨absent, _⟩
    · rw [listed.cachedTop.1]
      exact Delegations.lowest_le listed.topSorted (mem_of_lookup isTop)
    · exact absurd absent present
  have inBottom : lookup Bond.owner top.delegations delegator = none →
      lookup Bond.owner bottom.delegations delegator ≠ none ∧ info.topCapacity = .full ∧
        (info.lowestTopDelegationAmount ≤ amount →
          info.lowestTopDelegationAmount = info.highestBottomDelegationAmount) := by
    intro absent
    rcases top_or_bottom found with isTop | ⟨_, isBottom⟩
    · rw [absent] at isTop
      cases isTop
    · have nonempty := List.ne_nil_of_mem (mem_of_lookup isBottom)
      have upper := listed.highest_le_lowest nonempty
      have lower := listed.amount_le_highest isBottom
      refine ⟨by simp [isBottom], ?_, fun geqLowestTop => le_antisymm ?_ upper⟩
      · by_contra notFull
        exact nonempty (listed.bottom_nil notFull)
      · exact geqLowestTop.trans lower
  refine ⟨?_, fun more => ?_, fun less _ => ?_⟩
  · apply routes_of_finds storedTop storedBottom
      (finds_rmTopDelegation storedTop storedBottom pooled listed)
      (finds_rmBottomDelegation storedBottom listed)
    · have geqLowestTop := inTop
      tauto
    · have bottomFacts := inBottom
      tauto
  · apply routes_of_finds storedTop storedBottom
      (finds_increaseTopDelegation storedTop pooled more)
      (finds_increaseBottomDelegation storedTop storedBottom pooled listed amount more)
    · have geqLowestTop := inTop
      tauto
    · have bottomFacts := inBottom
      tauto
  · apply routes_of_finds storedTop storedBottom
      (finds_decreaseTopDelegation storedTop storedBottom pooled listed amount less)
      (finds_decreaseBottomDelegation storedBottom less)
    · have geqLowestTop := inTop
      tauto
    · have bottomFacts := inBottom
      tauto

end Lists

/-- In a run in which candidates only leave by clean exits, every recorded delegation is
found as if both lists were searched. -/
theorem routes_as_searched {spec : ChainSpec AccountId Native} {state : State AccountId Native}
    (reached : Reached config spec LeavesCleanly state) {candidate delegator : AccountId}
    {info : CandidateMetadata} {amount : Nat}
    (stored : state.stakes.candidateInfo.get candidate = some info)
    (recorded : booked state.stakes.delegatorState delegator candidate = some amount) :
    RoutesAll config state.stakes candidate delegator info amount := by
  have agrees := reached.agrees fun _ _ => id
  obtain ⟨top, bottom, storedTop, storedBottom⟩ := reached.sound.exists_lists stored
  obtain ⟨listed, _⟩ := agrees.listed stored storedTop storedBottom
  have found := agrees.lookup_table stored storedTop storedBottom recorded
  exact routesAll_of_listed storedTop storedBottom (reached.sound.pooled stored) listed found

/-- The last of the bottom delegations of a crowded candidate is found. -/
theorem routes_as_searched_crowded :
    ∃ state info, Reached mockRuntime crowdedGenesis LeavesCleanly state ∧
      state.stakes.candidateInfo.get 1 = some info ∧
      booked state.stakes.delegatorState 4 1 = some 4 ∧
      RoutesAll mockRuntime state.stakes 1 4 info 4 := by
  obtain ⟨state, isPlayed, observed⟩ := Option.map_eq_some_iff.mp
    (show (played mockRuntime crowdedGenesis crowdedRun).map
      (fun state => ((state.stakes.candidateInfo.get 1).isSome,
        booked state.stakes.delegatorState 4 1)) = some (true, some 4) by decide +kernel)
  simp only [Prod.mk.injEq] at observed
  obtain ⟨isCandidate, recorded⟩ := observed
  obtain ⟨info, stored⟩ := Option.isSome_iff_exists.mp isCandidate
  have reached : Reached mockRuntime crowdedGenesis LeavesCleanly state :=
    Reached.of_played isPlayed
      (admitted_of_forall fun state => allows_crowdedRun (fun _ => trivial) state)
  exact ⟨state, info, reached, stored, recorded, routes_as_searched reached stored recorded⟩

/-- No minimum for delegations, and one place in each of the two lists. -/
def narrowMinimum : Config Nat (Nat → Nat) :=
  { zeroMinimum with maxTopDelegationsPerCandidate := 1, maxBottomDelegationsPerCandidate := 1 }

/-- The delegation that has lost its record stays in the top list when its owner delegates
again: the first time the new one is above it and takes on its kick, the second time the
new one is below it. -/
def shadowedRun : List (Action Nat (Nat → Nat)) :=
  uncleanRun ++
  [.extrinsic (.signed 4) (.delegate 2 2 2 0),
    .extrinsic (.signed 3) (.delegate 2 3 2 0)]

/-- What is left of the top list after an operation. -/
def topAmounts {α : Type} (operation : StakesM Nat (Nat → Nat) α)
    (stakes : Stakes Nat (Nat → Nat)) : Option (List Nat) :=
  ((operation stakes).2.topDelegations.get 2).map fun top => top.delegations.map Bond.amount

/-- After an unclean exit the removal of a delegation takes it from the bottom list although
the delegator is in the top list. -/
theorem routes_not_as_searched :
    ∃ state info, Reachable narrowMinimum (mockGenesis [1, 2] []) state ∧
      state.stakes.candidateInfo.get 2 = some info ∧
      booked state.stakes.delegatorState 3 2 = some 3 ∧
      ¬RoutesAll narrowMinimum state.stakes 2 3 info 3 := by
  obtain ⟨state, reachable, observed⟩ := Reached.exists_of_played
    (show (played narrowMinimum (mockGenesis [1, 2] []) shadowedRun).map
      (fun state => (booked state.stakes.delegatorState 3 2,
        (state.stakes.candidateInfo.get 2).map fun info =>
          (topAmounts (info.rmDelegationIfExists narrowMinimum 2 3 3) state.stakes,
            topAmounts (CandidateMetadata.searchLists 2 3
              (info.rmTopDelegation narrowMinimum 2 3)
              (info.rmBottomDelegation narrowMinimum 2 3)) state.stakes))) =
      some (some 3, some (some [5], some [3])) by decide +kernel)
  simp only [Prod.mk.injEq, Option.map_eq_some_iff] at observed
  obtain ⟨recorded, info, stored, routed, searched⟩ := observed
  refine ⟨state, info, reachable, stored, recorded, fun routes => ?_⟩
  rw [topAmounts, routes.removes.same, ← topAmounts, searched] at routed
  cases routed

end Popsicle
