import Popsicle.GroupFailures
import Popsicle.Regrouping
import Popsicle.Snapshots

/-!
# When the chain halts

A panic while a block is initialized leaves no block to make, so it ends the chain.  Only the
blocks that select the sequencers of the next round can panic: where there is nothing to
select and nothing to fall back on, and where no group is asked for but processors are
registered.
-/

namespace Popsicle

open Foundation Exec Keyed

variable {AccountId Native : Type} {config : Config AccountId Native}

/-! ## Group metrics -/

/-- `set_group_metric` accepts these metrics. -/
structure Metered (config : Config AccountId Native) (groupSize groupNumber : Nat) : Prop where
  size : groupSize ≤ config.maxGroupSize
  number : groupNumber ≤ config.maxGroupNumber

/-- Accepted metrics and their products are `u32`. -/
structure MetricsFit (config : Config AccountId Native) : Prop where
  number : config.maxGroupNumber ≤ u32Max
  product : config.maxGroupSize * config.maxGroupNumber ≤ u32Max

/-- No group is asked for, with processors registered, and the build checks the arithmetic. -/
def Unassignable (config : Config AccountId Native) (groups : Groups AccountId) : Prop :=
  config.overflowChecks = true ∧ groups.groupNumber = 0 ∧ groups.processorInfo ≠ []

theorem Metered.not_overflows {groups : Groups AccountId}
    (metered : Metered config groups.groupSize groups.groupNumber) (fit : MetricsFit config) :
    ¬Overflows config groups := by
  rintro ⟨_, tooLarge⟩
  have atMost := Nat.mul_le_mul metered.size metered.number
  exact absurd (atMost.trans fit.product) (Nat.not_le.mpr tooLarge)

theorem Metered.not_excessive {groups : Groups AccountId}
    (metered : Metered config groups.groupSize groups.groupNumber) (fit : MetricsFit config) :
    ¬Excessive config groups := by
  rintro (overflows | ⟨_, tooLarge⟩ | tooMany)
  · have atMost := Nat.mul_le_mul metered.size metered.number
    exact absurd (atMost.trans fit.product) (Nat.not_le.mpr overflows)
  · exact absurd metered.size (Nat.not_le.mpr tooLarge)
  · exact absurd metered.number (Nat.not_le.mpr tooMany)

section Pallet

variable [DecidableEq AccountId] {before after groups : Groups AccountId}

theorem Metered.transition {action : GroupingAction AccountId}
    (metered : Metered config before.groupSize before.groupNumber)
    (transition : GroupingTransition config before action after) :
    Metered config after.groupSize after.groupNumber := by
  cases transition with
  | refused | moved | joined => exact metered
  | metric _ _ size number => exact ⟨size, number⟩
  | grouped _ _ _ _ _ grouped =>
      obtain ⟨_, _, rfl⟩ := grouped.isAfter
      exact metered
  | notGrouped _ _ _ _ _ _ notGrouped => cases notGrouped <;> exact metered

omit [DecidableEq AccountId] in
theorem Unassigned.panics_iff {fault : Fault} (fits : groups.groupNumber ≤ u32Max)
    (unassigned : Unassigned config groups.processorInfo groups.groupNumber fault) :
    (∃ site, fault = .panic site) ↔ Unassignable config groups := by
  cases unassigned with
  | noProcessors none =>
      refine iff_of_false ?_ fun unassignable => unassignable.2.2 none
      rintro ⟨_, isPanic⟩
      cases isPanic
  | underflow some underflows =>
      refine iff_of_true ⟨_, rfl⟩ ⟨underflows.1, underflows.2.resolve_right ?_, some⟩
      exact Nat.not_lt.mpr (fits.trans (Nat.le_succ _))
  | tooMany _ numbered =>
      refine iff_of_false ?_ fun unassignable =>
        numbered ⟨unassignable.1, .inl unassignable.2.1⟩
      rintro ⟨_, isPanic⟩
      cases isPanic

omit [DecidableEq AccountId] in
/-- With accepted metrics, forming groups panics exactly for want of groups to assign. -/
theorem ends_triggerGroup_panics (fit : MetricsFit config)
    (metered : Metered config groups.groupSize groups.groupNumber) (parentHash : Nat)
    (candidates : List AccountId) (startingBlock roundIndex : Nat) :
    (triggerGroup config parentHash candidates startingBlock roundIndex).Ends groups
      (fun _ _ => ¬Unassignable config groups)
      (fun fault _ => (∃ site, fault = .panic site) ↔ Unassignable config groups) := by
  refine (ends_triggerGroup_grouped _ _ _ _).mono ?_ ?_
  · rintro _ _ grouped ⟨checks, none, some⟩
    exact grouped.assigned _ (.underflow some ⟨checks, .inl none⟩)
  · rintro fault after notGrouped
    cases notGrouped with
    | tooFew _ few =>
        refine iff_of_false ?_ fun unassignable => ?_
        · rintro ⟨_, isPanic⟩
          cases isPanic
        · rw [unassignable.2.1, Nat.mul_zero] at few
          exact absurd few (Nat.not_lt_zero _)
    | excessive _ _ excessive => exact absurd excessive (metered.not_excessive fit)
    | unassigned _ _ _ _ unassigned =>
        exact unassigned.panics_iff (metered.number.trans fit.number)

end Pallet

/-! ## Blocks -/

section Chain

variable [LinearOrder AccountId] {spec : ChainSpec AccountId Native}
  {state : State AccountId Native}

theorem Reached.metered {admits : State AccountId Native → Action AccountId Native → Prop}
    (reached : Reached config spec admits state)
    (metered : Metered config spec.groupSize spec.groupNumber) :
    Metered config state.groups.groupSize state.groups.groupNumber := by
  obtain ⟨start, built, reaches⟩ := reached
  induction reaches with
  | start =>
      obtain ⟨stakes, _, rounds, _, rfl⟩ := exists_started built
      exact metered
  | next action reaches _ taken ih =>
      have reachable : Reached config spec admits _ := ⟨start, built, reaches⟩
      rcases regrouped_of_step reachable.sound taken with same | ⟨grouping, isStep⟩
      · rw [same]
        exact ih
      · exact ih.transition (groupingTransition_of_step isStep)

/-- What keeps an opened block from being initialized. -/
def Blocked (config : Config AccountId Native) (n : Nat) (middle : State AccountId Native) :
    Prop :=
  middle.rounds.round.shouldSnapshot n = true ∧
    (Uncovered config (middle.rounds.round.current + 1) middle ∨ Unassignable config middle.groups)

/-- A block is initialized unless something keeps it from being. -/
theorem ends_onInitialize_blocked (sound : Sound config state.stakes) (fit : MetricsFit config)
    (metered : Metered config state.groups.groupSize state.groups.groupNumber) (n : Nat) :
    (onInitialize config n).Ends state
      (fun _ _ => ∃ middle, Opens config n state middle ∧ ¬Blocked config n middle)
      (fun _ _ => ∃ middle, Opens config n state middle ∧ Blocked config n middle) := by
  rw [onInitialize, ends_bind]
  refine (ends_changeRound state n).imp ?_
  rintro _ middle ⟨opens, rfl⟩
  obtain ⟨native, rounds, isMiddle⟩ := opens.frame
  have sameGroups : middle.groups = state.groups := by rw [isMiddle]
  rw [← sameGroups] at metered
  simp only [takeSnapshot, ends_ite, ends_bind, ends_pure]
  refine ⟨fun snapshot => ?_, fun noSnapshot =>
    ⟨middle, opens, fun blocked => noSnapshot blocked.1⟩⟩
  refine (ends_selectTopCandidates (opens.sound sound) _).mono ?_ ?_
  · rintro _ _ ⟨rounds, rfl, selection⟩
    simp only [writeRounds, onGroups, ends_write, ends_read, ends_discardError, ends_zoom]
    refine (ends_triggerGroup_panics fit metered _ _ _ _).mono ?_ ?_
    · rintro _ _ assignable
      exact ⟨middle, opens, fun blocked =>
        blocked.2.elim selection.not_uncovered assignable⟩
    · rintro fault _ panics
      constructor
      · rintro reason rfl
        refine ⟨middle, opens, fun blocked =>
          blocked.2.elim selection.not_uncovered fun unassignable => ?_⟩
        obtain ⟨_, isPanic⟩ := panics.mpr unassignable
        cases isPanic
      · rintro site rfl
        exact ⟨middle, opens, snapshot, .inr (panics.mp ⟨site, rfl⟩)⟩
  · rintro fault _ (⟨rfl, overflows⟩ | ⟨rfl, uncovered⟩)
    · exact absurd overflows (metered.not_overflows fit)
    · exact ⟨middle, opens, snapshot, .inl uncovered⟩

/-- The next block cannot be initialized: it selects sequencers, and the state is stranded or
there are no groups to assign. -/
def Halts (config : Config AccountId Native) (state : State AccountId Native) : Prop :=
  Stranded config state ∨
    (state.openedRound.shouldSnapshot (state.blockNumber + 1) = true ∧
      Unassignable config state.groups)

/-- An opened block is blocked if and only if the state it was opened in halts the chain. -/
theorem blocked_iff (reachable : Reachable config spec state) {parentHash : Nat}
    {middle : State AccountId Native}
    (opens : Opens config (state.blockNumber + 1) (enterBlock state parentHash) middle) :
    Blocked config (state.blockNumber + 1) middle ↔ Halts config state := by
  have stranded := stranded_iff reachable.staged reachable.onTime_any (fun _ => trivial) opens
  obtain ⟨isRound, _, _, _, sameGroups⟩ := opens.reads
  unfold Blocked Halts
  rw [and_or_left, sameGroups, ← isRound]
  refine or_congr_left ⟨fun uncovered => (stranded uncovered.1).mp uncovered.2, ?_⟩
  intro isStranded
  have snapshot := isStranded.1
  rw [← isRound] at snapshot
  exact ⟨snapshot, (stranded snapshot).mpr isStranded⟩

/-- The next block of a reachable state cannot be initialized if and only if the state halts
the chain. -/
theorem step_nextBlock_none_iff (fit : MetricsFit config)
    (metered : Metered config spec.groupSize spec.groupNumber)
    (reachable : Reachable config spec state) (parentHash : Nat) :
    step config state (.nextBlock parentHash) = none ↔ Halts config state := by
  have soundEntry : Sound config (enterBlock state parentHash).stakes := reachable.sound
  have ends := ends_onInitialize_blocked soundEntry fit (reachable.metered metered)
    (state.blockNumber + 1)
  simp only [step]
  split
  next _ _ isOk =>
    obtain ⟨middle, opens, unblocked⟩ := ends.of_ok isOk
    refine iff_of_false (by simp) fun halts => ?_
    exact unblocked ((blocked_iff reachable opens).mpr halts)
  next _ _ isError =>
    obtain ⟨middle, opens, blocked⟩ := ends.of_error isError
    exact iff_of_true rfl ((blocked_iff reachable opens).mp blocked)

/-! ## Runs -/

/-- The number of groups is as before, or the one that a call asks for. -/
def Call.Asked (call : Call AccountId) (before after : Groups AccountId) : Prop :=
  after.groupNumber = before.groupNumber ∨
    ∃ groupSize, call = .setGroupMetric groupSize after.groupNumber

omit [LinearOrder AccountId] in
theorem ends_onStakes_asked {call : Call AccountId} (body : StakesM AccountId Native Unit) :
    (onStakes body).Ends state (fun _ after => call.Asked state.groups after.groups)
      fun _ after => call.Asked state.groups after.groups := by
  rw [onStakes, ends_zoom]
  exact .of_forall (fun _ _ => .inl rfl) fun _ _ => .inl rfl

theorem ends_chainCall_asked (origin : Origin AccountId) (call : Call AccountId) :
    (chainCall config origin call).Ends state
      (fun _ after => call.Asked state.groups after.groups) fun _ _ => True := by
  have stakes {body : StakesM AccountId Native Unit} : (onStakes body).Ends state
      (fun _ after => call.Asked state.groups after.groups) fun _ _ => True :=
    (ends_onStakes_asked body).mono (fun _ _ => id) fun _ _ _ => trivial
  by_cases isOnStakes : call.OnStakes
  · rw [chainCall_of_onStakes isOnStakes]
    simp only [ends_bind, ends_ensureSigned, ends_read, implies_true, and_true]
    intro who _
    split
    next => exact stakes
    next => exact .inl rfl
  cases call with
  | setSequencerCommission new =>
      simp only [chainCall, setSequencerCommission, writeRounds, ends_bind, ends_ensureRoot,
        ends_read, ends_ensure, ends_write, implies_true, and_true]
      exact fun _ _ => .inl rfl
  | setBlocksPerRound new =>
      simp only [chainCall, setBlocksPerRound, writeRounds, totalSelected, ends_bind,
        ends_ensureRoot, ends_read, ends_ensure, implies_true, and_true]
      refine fun _ _ _ => ends_u32Result _ _ (fun total => ?_) trivial
      simp only [ends_write]
      exact fun _ => .inl rfl
  | notifyInactiveSequencer sequencer =>
      simp only [chainCall, notifyInactiveSequencer, totalSelected, ends_bind, ends_read,
        ends_ensure, ends_ensureSigned, implies_true, and_true]
      refine fun _ who _ => ends_u32Result _ _ (fun total => ?_) trivial
      refine ends_u32Result _ _ (fun twice => ?_) trivial
      simp only [ends_discardError, implies_true, and_true]
      exact fun _ _ _ => (ends_onStakes_asked _).mono (fun _ _ => id)
        fun _ _ unchanged _ _ => unchanged
  | enableMarkingOffline value =>
      simp only [chainCall, writeRounds, ends_bind, ends_ensureRoot, ends_write, implies_true,
        and_true]
      exact fun _ => .inl rfl
  | forceJoinCandidates account candidateCount =>
      simp only [chainCall, ends_bind, ends_ensureRoot, implies_true, and_true]
      exact fun _ => stakes
  | setGroupMetric groupSize groupNumber =>
      simp only [chainCall, onGroups, setGroupMetric, ends_bind, ends_ensureRoot, ends_zoom,
        ends_ensure, ends_write, implies_true, and_true]
      exact fun _ _ _ => .inr ⟨groupSize, rfl⟩
  | benchmarkTriggerGroup candidates startingBlock roundIndex =>
      simp only [chainCall, onGroups, ends_bind, ends_ensureRoot, ends_read, ends_discardError,
        ends_zoom, implies_true, and_true]
      refine fun _ => (ends_triggerGroup _ _ _ _).mono ?_ ?_
      · rintro _ _ ⟨_, _, _, rfl⟩
        exact .inl rfl
      · rintro _ _ ⟨_, _, rfl⟩ _ _
        exact .inl rfl
  | registerProcessor ipAddress =>
      simp only [chainCall, onGroups, registerProcessor, ends_bind, ends_ensureSigned, ends_zoom,
        ends_read, ends_ite, ends_ensure, ends_write, implies_true, and_true]
      exact fun _ _ => ⟨fun _ => .inl rfl, fun _ _ => .inl rfl⟩
  | chargeRewardAccount | joinCandidates | scheduleLeaveCandidates | executeLeaveCandidates
  | cancelLeaveCandidates | goOffline | goOnline | candidateBondMore | scheduleCandidateBondLess
  | executeCandidateBondLess | cancelCandidateBondLess | delegate | scheduleRevokeDelegation
  | delegatorBondMore | scheduleDelegatorBondLess | executeDelegationRequest
  | cancelDelegationRequest | hotfixRemoveDelegationRequestsExitedCandidates =>
      exact absurd trivial isOnStakes

omit [LinearOrder AccountId] in
theorem groupNumber_triggerGroup {groups : Groups AccountId} [DecidableEq AccountId]
    (parentHash : Nat) (candidates : List AccountId) (startingBlock roundIndex : Nat) :
    (triggerGroup config parentHash candidates startingBlock roundIndex groups).2.groupNumber =
      groups.groupNumber := by
  have ends : (triggerGroup config parentHash candidates startingBlock roundIndex).Ends groups
      (fun _ after => after.groupNumber = groups.groupNumber)
      fun _ after => after.groupNumber = groups.groupNumber := by
    refine (ends_triggerGroup _ _ _ _).mono ?_ ?_
    · rintro _ _ ⟨_, _, _, rfl⟩
      rfl
    · rintro _ _ ⟨_, _, rfl⟩
      rfl
  exact ends.last

theorem Block.groupNumber {before after : State AccountId Native} {n : Nat}
    (block : Block config n before after) :
    after.groups.groupNumber = before.groups.groupNumber := by
  cases block with
  | plain opens =>
      obtain ⟨_, _, rfl⟩ := opens.frame
      rfl
  | snapshots rounds opens =>
      obtain ⟨_, _, rfl⟩ := opens.frame
      exact groupNumber_triggerGroup _ _ _ _

/-- Root asks for groups, if it sets the metrics. -/
def AsksForGroups : Action AccountId Native → Prop
  | .extrinsic _ (.setGroupMetric _ groupNumber) => groupNumber ≠ 0
  | _ => True

/-- The number of groups stays positive where no other is asked for. -/
theorem groupNumber_of_step {before after : State AccountId Native}
    {action : Action AccountId Native} (reachable : Reachable config spec before)
    (asks : AsksForGroups action) (positive : before.groups.groupNumber ≠ 0)
    (taken : step config before action = some after) : after.groups.groupNumber ≠ 0 := by
  cases action with
  | nextBlock parentHash =>
      rw [(reachable.block (step_nextBlock_iff.mp taken)).groupNumber]
      exact positive
  | extrinsic origin call =>
      simp only [step] at taken
      split at taken
      next => cases taken
      next =>
        cases taken
        have ends : (chainCall config origin call).Ends before _ _ :=
          ends_chainCall_asked origin call
        rcases ends.transactional with (same | ⟨groupSize, isCall⟩) | ⟨same, _⟩
        · rw [applyExtrinsic, dispatch, same]
          exact positive
        · rw [isCall] at asks
          exact asks
        · rw [applyExtrinsic, dispatch, same]
          exact positive
  | awardPoints sequencer points =>
      simp only [step] at taken
      split at taken
      next => cases taken
      next =>
        cases taken
        exact positive
  | moveBtc source dest amount =>
      simp only [step] at taken
      split at taken
      next => cases taken
      next =>
        obtain ⟨balance, _, rfl⟩ := Option.map_eq_some_iff.mp taken
        exact positive
  | changeNative native =>
      simp only [step] at taken
      split at taken
      next => cases taken
      next =>
        cases taken
        exact positive

theorem Reached.asks {admits : State AccountId Native → Action AccountId Native → Prop}
    (reached : Reached config spec admits state)
    (asks : ∀ state action, admits state action → AsksForGroups action)
    (initial : spec.groupNumber ≠ 0) : state.groups.groupNumber ≠ 0 := by
  obtain ⟨start, built, reaches⟩ := reached
  have begins : Reachable config spec start := ⟨start, built, .start⟩
  have isInitial : start.groups.groupNumber ≠ 0 := by
    obtain ⟨_, _, _, _, rfl⟩ := exists_started built
    exact initial
  have kept : ∀ before action after, Reachable config spec before →
      before.groups.groupNumber ≠ 0 → admits before action →
      step config before action = some after → after.groups.groupNumber ≠ 0 := by
    intro before action after reachable positive admitted taken
    exact groupNumber_of_step reachable (asks before action admitted) positive taken
  exact (begins.along reaches kept isInitial).2

/-- A run whose rounds are all long enough for their snapshot, and in which groups are asked
for where the build checks the arithmetic. -/
def Lively (config : Config AccountId Native) (spec : ChainSpec AccountId Native)
    (state : State AccountId Native) (action : Action AccountId Native) : Prop :=
  EndsRound (LongEnough spec) state action ∧ (config.overflowChecks = true → AsksForGroups action)

omit [LinearOrder AccountId] in
/-- When all rounds are long enough, the snapshot for the round of the next block has been
taken. -/
theorem OnTime.snapped (onTime : OnTime spec.snapshotTimePoint (LongEnough spec) state)
    (allowed : state.rounds.round.shouldUpdate (state.blockNumber + 1) = true →
      LongEnough spec state.rounds.round.first (state.blockNumber + 1)) :
    Snapped state.rounds.events state.openedRound.current := by
  have enough : ∀ first next, LongEnough spec first next →
      passed spec.snapshotTimePoint first next = true := fun _ _ => passed_iff.mpr
  unfold State.openedRound
  split
  next due => exact .inr (onTime.logged.mem_candidatesSelected.1.mpr (enough _ _ (allowed due)))
  next => exact onTime.logged.current_selected enough

theorem Reached.not_halts (reached : Reached config spec (Lively config spec) state)
    (initial : config.overflowChecks = true → spec.groupNumber ≠ 0)
    (allowed : state.rounds.round.shouldUpdate (state.blockNumber + 1) = true →
      LongEnough spec state.rounds.round.first (state.blockNumber + 1)) :
    ¬Halts config state := by
  rintro (stranded | ⟨_, checks, none, _⟩)
  · have onTime := reached.onTime fun _ _ _ lively => lively.1
    exact stranded.2.2.2 (onTime.snapped allowed)
  · exact reached.asks (fun _ _ lively => lively.2 checks) (initial checks) none

/-- The next block of a reachable state cannot be initialized if and only if the state halts
the chain, which no lively run leads to. -/
theorem halts_iff (fit : MetricsFit config)
    (metered : Metered config spec.groupSize spec.groupNumber) :
    (∀ state, Reachable config spec state → ∀ parentHash,
      step config state (.nextBlock parentHash) = none ↔ Halts config state) ∧
    ((config.overflowChecks = true → spec.groupNumber ≠ 0) →
      ∀ state, Reached config spec (Lively config spec) state → ∀ parentHash,
        EndsRound (LongEnough spec) state (.nextBlock parentHash) →
          ∃ after, step config state (.nextBlock parentHash) = some after) := by
  refine ⟨fun state reachable => step_nextBlock_none_iff fit metered reachable, ?_⟩
  intro initial state reached parentHash allowed
  rw [← Option.ne_none_iff_exists', ne_eq,
    step_nextBlock_none_iff fit metered reached.reachable parentHash]
  exact reached.not_halts initial allowed

end Chain

/-- Root asks for no groups, and a processor is registered, before the snapshot of the first
round. -/
def ungroupedRun : List (Action Nat (Nat → Nat)) :=
  [.nextBlock 0, .extrinsic .root (.setGroupMetric 2 0),
    .extrinsic (.signed 5) (.registerProcessor [127, 0, 0, 1]), .nextBlock 0]

/-- The run halts before its third block, and genesis does not. -/
theorem halts_iff_ungrouped :
    (∃ state, Reachable mockRuntime pairGenesis state ∧
      state.blockNumber = 2 ∧ step mockRuntime state (.nextBlock 0) = none) ∧
    ∃ start after, genesis mockRuntime pairGenesis = some start ∧
      step mockRuntime start (.nextBlock 0) = some after := by
  obtain ⟨halted, lively⟩ :=
    halts_iff (show MetricsFit mockRuntime from ⟨by decide, by decide⟩)
      (show Metered mockRuntime pairGenesis.groupSize pairGenesis.groupNumber from
        ⟨by decide, by decide⟩)
  constructor
  · obtain ⟨state, reachable, seen⟩ := Reached.exists_of_played
      (show (played mockRuntime pairGenesis ungroupedRun).map (fun state =>
        (state.blockNumber, state.openedRound.shouldSnapshot (state.blockNumber + 1),
          state.groups.groupNumber, state.groups.processorInfo.isEmpty)) =
        some (2, true, 0, false) by decide +kernel)
    simp only [Prod.mk.injEq] at seen
    obtain ⟨number, snapshot, none, nonempty⟩ := seen
    refine ⟨state, reachable, number, (halted state reachable 0).mpr (.inr ?_)⟩
    refine ⟨snapshot, rfl, none, ?_⟩
    intro isEmpty
    rw [isEmpty] at nonempty
    cases nonempty
  · obtain ⟨start, built, early⟩ := Option.map_eq_some_iff.mp
      (show (genesis mockRuntime pairGenesis).map (fun start =>
        start.rounds.round.shouldUpdate (start.blockNumber + 1)) = some false by decide +kernel)
    have allowed : EndsRound (LongEnough pairGenesis) start (.nextBlock 0) := by
      intro due
      rw [early] at due
      cases due
    obtain ⟨after, taken⟩ := lively (fun _ => by decide) start ⟨start, built, .start⟩ 0 allowed
    exact ⟨start, after, built, taken⟩

end Popsicle
