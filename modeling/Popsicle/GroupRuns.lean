import Popsicle.Steps

/-!
# Runs of the grouping pallet

What can happen to the groups: the pallet has two extrinsics, and it is asked to form groups
by new blocks and by root, who both drop the result.  The groups of a chain go through such a
run.
-/

namespace Popsicle

open Foundation Exec RoundRobin

variable {AccountId Native : Type} {config : Config AccountId Native}

/-- What can happen to the groups. -/
inductive GroupingAction (AccountId : Type) where
  | setGroupMetric (groupSize groupNumber : Nat)
  | registerProcessor (who : AccountId) (ipAddress : List Nat)
  /-- Groups are formed, and whoever asks for it drops the result. -/
  | triggerGroup (parentHash : Nat) (candidates : List AccountId) (startingBlock : Nat)
      (roundIndex : Nat)

/-- One step of the pallet.  An extrinsic that fails changes nothing, an error that is dropped
undoes nothing, and a panic leaves no next state. -/
def groupingStep [DecidableEq AccountId] (config : Config AccountId Native)
    (groups : Groups AccountId) : GroupingAction AccountId → Option (Groups AccountId)
  | .setGroupMetric groupSize groupNumber =>
      some (transactional (setGroupMetric config groupSize groupNumber) groups).2
  | .registerProcessor who ipAddress =>
      some (transactional (registerProcessor config who ipAddress) groups).2
  | .triggerGroup parentHash candidates startingBlock roundIndex =>
      match discardError (triggerGroup config parentHash candidates startingBlock roundIndex)
        groups with
      | (.ok _, after) => some after
      | (.error _, _) => none

/-- The groups at genesis, which only sets the metrics. -/
def freshGroups (groupSize groupNumber : Nat) : Groups AccountId :=
  { groupSize, groupNumber, groupMembers := [], nextRound := (0, 0), processorInfo := [] }

/-- The groups that some run of the pallet leads to. -/
def GroupsReachable [DecidableEq AccountId] (config : Config AccountId Native)
    (groups : Groups AccountId) : Prop :=
  ∃ groupSize groupNumber, Reaches (groupingStep config) (fun _ _ => True)
    (freshGroups groupSize groupNumber) groups

/-! ## Steps -/

section Pallet

variable [DecidableEq AccountId] {before after : Groups AccountId}

/-- What a step does to the groups. -/
inductive GroupingTransition (config : Config AccountId Native) (before : Groups AccountId) :
    GroupingAction AccountId → Groups AccountId → Prop where
  | refused (action : GroupingAction AccountId) : GroupingTransition config before action before
  | metric (groupSize groupNumber : Nat) (size : groupSize ≤ config.maxGroupSize)
      (number : groupNumber ≤ config.maxGroupNumber) :
      GroupingTransition config before (.setGroupMetric groupSize groupNumber)
        { before with groupSize, groupNumber }
  | moved (who : AccountId) (ipAddress : List Nat) :
      GroupingTransition config before (.registerProcessor who ipAddress)
        { before with
          processorInfo := before.processorInfo.map fun processor =>
            if processor.account = who then { processor with ipAddress } else processor }
  | joined (who : AccountId) (ipAddress : List Nat)
      (isNew : ∀ processor ∈ before.processorInfo, processor.account ≠ who)
      (hasRoom : before.processorInfo.length < config.maxRunningApp) :
      GroupingTransition config before (.registerProcessor who ipAddress)
        { before with
          processorInfo := before.processorInfo ++ [{ account := who, ipAddress, groups := [] }] }
  | grouped (parentHash : Nat) (candidates : List AccountId) (startingBlock roundIndex : Nat)
      (after : Groups AccountId)
      (grouped : Grouped config parentHash candidates startingBlock roundIndex before after) :
      GroupingTransition config before
        (.triggerGroup parentHash candidates startingBlock roundIndex) after
  | notGrouped (parentHash : Nat) (candidates : List AccountId) (startingBlock roundIndex : Nat)
      (after : Groups AccountId) (reason : DispatchError)
      (notGrouped : NotGrouped config parentHash candidates before (.error reason) after) :
      GroupingTransition config before
        (.triggerGroup parentHash candidates startingBlock roundIndex) after

theorem groupingTransition_of_step {action : GroupingAction AccountId}
    (taken : groupingStep config before action = some after) :
    GroupingTransition config before action after := by
  cases action with
  | setGroupMetric groupSize groupNumber =>
      obtain rfl := Option.some.inj taken
      have ends : (setGroupMetric config groupSize groupNumber).Ends before
          (fun _ after => GroupingTransition config before
            (.setGroupMetric groupSize groupNumber) after) fun _ _ => True := by
        simp only [setGroupMetric, ends_bind, ends_ensure, ends_write, implies_true, and_true]
        exact fun size number => .metric groupSize groupNumber size number
      rcases ends.transactional with transition | ⟨same, _⟩
      · exact transition
      · rw [same]
        exact .refused _
  | registerProcessor who ipAddress =>
      obtain rfl := Option.some.inj taken
      have ends : (registerProcessor config who ipAddress).Ends before
          (fun _ after => GroupingTransition config before
            (.registerProcessor who ipAddress) after) fun _ _ => True := by
        simp only [registerProcessor, ends_bind, ends_read, ends_ite, ends_ensure, ends_write,
          implies_true, and_true]
        refine ⟨fun _ => .moved who ipAddress, fun isNew hasRoom => ?_⟩
        exact .joined who ipAddress (by simpa using isNew) hasRoom
      rcases ends.transactional with transition | ⟨same, _⟩
      · exact transition
      · rw [same]
        exact .refused _
  | triggerGroup parentHash candidates startingBlock roundIndex =>
      have ends : (discardError
          (triggerGroup config parentHash candidates startingBlock roundIndex)).Ends before
          (fun _ after => GroupingTransition config before
            (.triggerGroup parentHash candidates startingBlock roundIndex) after)
          fun _ _ => True := by
        rw [ends_discardError]
        refine (ends_triggerGroup_grouped _ _ _ _).mono ?_ ?_
        · exact fun _ after grouped => .grouped _ _ _ _ after grouped
        · rintro fault after notGrouped
          refine ⟨?_, fun _ _ => trivial⟩
          rintro reason rfl
          exact .notGrouped _ _ _ _ after reason notGrouped
      simp only [groupingStep] at taken
      split at taken
      next _ isOk =>
        obtain rfl := Option.some.inj taken
        exact ends.of_ok isOk
      next => cases taken

/-! ## Accounts of processors -/

/-- Every processor has an account of its own, and there are no more than fit. -/
structure Registered (config : Config AccountId Native)
    (processorInfo : List (ProcessorInfo AccountId)) : Prop where
  distinct : (processorInfo.map ProcessorInfo.account).Nodup
  bounded : processorInfo.length ≤ config.maxRunningApp

omit [DecidableEq AccountId] in
theorem map_deal {α : Type} {field : ProcessorInfo AccountId → α}
    (ignores : ∀ processor groups, field { processor with groups } = field processor)
    (processorInfo : List (ProcessorInfo AccountId)) (count : Nat) :
    (deal processorInfo count).map field = processorInfo.map field := by
  apply List.ext_getElem?
  intro index
  simp only [List.getElem?_map, getElem?_deal, Option.map_map]
  congr 1
  funext processor
  exact ignores processor _

theorem Registered.transition {action : GroupingAction AccountId}
    (registered : Registered config before.processorInfo)
    (transition : GroupingTransition config before action after) :
    Registered config after.processorInfo := by
  cases transition with
  | refused | metric => exact registered
  | moved who ipAddress =>
      refine ⟨?_, by simpa using registered.bounded⟩
      rw [List.map_map]
      convert registered.distinct using 2
      funext processor
      dsimp only [Function.comp_apply]
      split <;> rfl
  | joined who ipAddress isNew hasRoom =>
      refine ⟨?_, by simpa [Nat.succ_le_iff] using hasRoom⟩
      rw [List.map_append, List.nodup_append]
      refine ⟨registered.distinct, List.nodup_singleton _, ?_⟩
      rintro account member _ isWho rfl
      obtain ⟨processor, isProcessor, rfl⟩ := List.mem_map.mp member
      exact isNew processor isProcessor (List.mem_singleton.mp isWho)
  | grouped _ _ _ _ _ grouped =>
      obtain ⟨_, _, rfl⟩ := grouped.isAfter
      refine ⟨?_, by simpa using registered.bounded⟩
      rw [map_deal fun _ _ => rfl]
      exact registered.distinct
  | notGrouped _ _ _ _ _ _ notGrouped =>
      cases notGrouped <;> exact registered

theorem GroupsReachable.registered {groups : Groups AccountId}
    (reachable : GroupsReachable config groups) : Registered config groups.processorInfo := by
  obtain ⟨groupSize, groupNumber, reaches⟩ := reachable
  induction reaches with
  | start => exact ⟨List.nodup_nil, Nat.zero_le _⟩
  | next action _ _ taken ih => exact ih.transition (groupingTransition_of_step taken)

/-! ## Runs of the chain -/

/-- The pallet does nothing, or takes one step. -/
def Regrouped (config : Config AccountId Native) (before after : Groups AccountId) : Prop :=
  after = before ∨ ∃ action, groupingStep config before action = some after

theorem ends_triggerGroup_taken (parentHash : Nat) (candidates : List AccountId)
    (startingBlock roundIndex : Nat) :
    (triggerGroup config parentHash candidates startingBlock roundIndex).Ends before
      (fun _ after => groupingStep config before
        (.triggerGroup parentHash candidates startingBlock roundIndex) = some after)
      fun fault after => ∀ reason, fault = .error reason → groupingStep config before
        (.triggerGroup parentHash candidates startingBlock roundIndex) = some after := by
  have ends : (discardError
      (triggerGroup config parentHash candidates startingBlock roundIndex)).Ends before
      (fun _ after => groupingStep config before
        (.triggerGroup parentHash candidates startingBlock roundIndex) = some after)
      fun _ _ => True := by
    unfold Ends
    split
    next _ after isOk => simp only [groupingStep, isOk]
    next => trivial
  rw [ends_discardError] at ends
  exact ends.mono (fun _ _ => id) fun _ _ outcome => outcome.1

/-- Pallet code that is undone when it fails ends where a run of it ends. -/
theorem ends_as_transactional {σ : Type} (body : Exec σ Fault Unit) (state : σ) :
    body.Ends state (fun _ after => (transactional body state).2 = after) fun _ _ => True := by
  simp only [Ends, transactional]
  rcases body state with ⟨_ | _, _⟩
  · trivial
  · rfl

end Pallet

section Chain

variable [LinearOrder AccountId]

/-- Only a call of root that groups by hand forces an announcement. -/
def Call.Unforced : Call AccountId → Prop
  | .benchmarkTriggerGroup .. => False
  | _ => True

/-- The actions of a run that root does not group by hand. -/
def Unforced : Action AccountId Native → Prop
  | .extrinsic _ call => call.Unforced
  | _ => True

/-- What can happen to the groups between two blocks.  The announcement of the next round is
the same unless it is forced, and a round has some length still. -/
inductive Meanwhile (config : Config AccountId Native) (unforced : Prop)
    (before after : State AccountId Native) : Prop where
  | same (groups : after.groups = before.groups)
      (length : 0 < before.rounds.round.length → 0 < after.rounds.round.length)
  | acts (action : GroupingAction AccountId)
      (taken : groupingStep config before.groups action = some after.groups)
      (nextRound : unforced → after.groups.nextRound = before.groups.nextRound)
      (rounds : after.rounds = before.rounds)

section Between

variable {state : State AccountId Native}

theorem Meanwhile.refl {unforced : Prop} : Meanwhile config unforced state state :=
  .same rfl id

theorem nextRound_of_settled {before after : Groups AccountId}
    {action : GroupingAction AccountId} (taken : groupingStep config before action = some after)
    (settled : ∀ parentHash candidates startingBlock roundIndex,
      action ≠ .triggerGroup parentHash candidates startingBlock roundIndex) :
    after.nextRound = before.nextRound := by
  cases groupingTransition_of_step taken with
  | refused | metric | moved | joined => rfl
  | grouped | notGrouped => exact absurd rfl (settled _ _ _ _)

theorem ends_onStakes_meanwhile {unforced : Prop} (body : StakesM AccountId Native Unit) :
    (onStakes body).Ends state (fun _ after => Meanwhile config unforced state after)
      fun _ after => Meanwhile config unforced state after := by
  rw [onStakes, ends_zoom]
  exact .of_forall (fun _ _ => .same rfl id) fun _ _ => .same rfl id

theorem ends_chainCall_meanwhile (origin : Origin AccountId) (call : Call AccountId) :
    (chainCall config origin call).Ends state
      (fun _ after => Meanwhile config call.Unforced state after) fun _ _ => True := by
  have stakes {body : StakesM AccountId Native Unit} : (onStakes body).Ends state
      (fun _ after => Meanwhile config call.Unforced state after) fun _ _ => True :=
    (ends_onStakes_meanwhile body).mono (fun _ _ => id) fun _ _ _ => trivial
  by_cases isOnStakes : call.OnStakes
  · rw [chainCall_of_onStakes isOnStakes]
    simp only [ends_bind, ends_ensureSigned, ends_read, implies_true, and_true]
    intro who _
    split
    next => exact stakes
    next => exact .refl
  cases call with
  | setSequencerCommission new =>
      simp only [chainCall, setSequencerCommission, writeRounds, ends_bind, ends_ensureRoot,
        ends_read, ends_ensure, ends_write, implies_true, and_true]
      exact fun _ _ => .same rfl id
  | setBlocksPerRound new =>
      simp only [chainCall, setBlocksPerRound, writeRounds, totalSelected, ends_bind,
        ends_ensureRoot, ends_read, ends_ensure, implies_true, and_true]
      refine fun _ _ _ => ends_u32Result _ _ (fun total => ?_) trivial
      simp only [ends_write]
      exact fun isMore => .same rfl fun _ => Nat.zero_lt_of_lt isMore
  | notifyInactiveSequencer sequencer =>
      simp only [chainCall, notifyInactiveSequencer, totalSelected, ends_bind, ends_read,
        ends_ensure, ends_ensureSigned, implies_true, and_true]
      refine fun _ who _ => ends_u32Result _ _ (fun total => ?_) trivial
      refine ends_u32Result _ _ (fun twice => ?_) trivial
      simp only [ends_discardError, implies_true, and_true]
      exact fun _ _ _ => (ends_onStakes_meanwhile _).mono (fun _ _ => id)
        fun _ _ unchanged _ _ => unchanged
  | enableMarkingOffline value =>
      simp only [chainCall, writeRounds, ends_bind, ends_ensureRoot, ends_write, implies_true,
        and_true]
      exact fun _ => .same rfl id
  | forceJoinCandidates account candidateCount =>
      simp only [chainCall, ends_bind, ends_ensureRoot, implies_true, and_true]
      exact fun _ => stakes
  | setGroupMetric groupSize groupNumber =>
      simp only [chainCall, onGroups, ends_bind, ends_ensureRoot, ends_zoom, implies_true,
        and_true]
      refine fun _ => (ends_as_transactional _ _).imp fun _ after isAfter => ?_
      have taken : groupingStep config state.groups (.setGroupMetric groupSize groupNumber) =
          some after := congrArg some isAfter
      exact .acts _ taken (fun _ => nextRound_of_settled taken (by rintro _ _ _ _ ⟨⟩)) rfl
  | benchmarkTriggerGroup candidates startingBlock roundIndex =>
      simp only [chainCall, onGroups, ends_bind, ends_ensureRoot, ends_read, ends_discardError,
        ends_zoom, implies_true, and_true]
      refine fun _ => (ends_triggerGroup_taken _ _ _ _).mono ?_ ?_
      · exact fun _ _ taken => .acts _ taken False.elim rfl
      · exact fun _ _ taken reason isError => .acts _ (taken reason isError) False.elim rfl
  | registerProcessor ipAddress =>
      simp only [chainCall, onGroups, ends_bind, ends_ensureSigned, ends_zoom, implies_true,
        and_true]
      refine fun who _ => (ends_as_transactional _ _).imp fun _ after isAfter => ?_
      have taken : groupingStep config state.groups (.registerProcessor who ipAddress) =
          some after := congrArg some isAfter
      exact .acts _ taken (fun _ => nextRound_of_settled taken (by rintro _ _ _ _ ⟨⟩)) rfl
  | chargeRewardAccount | joinCandidates | scheduleLeaveCandidates | executeLeaveCandidates
  | cancelLeaveCandidates | goOffline | goOnline | candidateBondMore | scheduleCandidateBondLess
  | executeCandidateBondLess | cancelCandidateBondLess | delegate | scheduleRevokeDelegation
  | delegatorBondMore | scheduleDelegatorBondLess | executeDelegationRequest
  | cancelDelegationRequest | hotfixRemoveDelegationRequestsExitedCandidates =>
      exact absurd trivial isOnStakes

/-- Between blocks the groups are touched by the extrinsics of their pallet only. -/
theorem meanwhile_of_step {before after : State AccountId Native}
    {action : Action AccountId Native} (isBetween : ∀ parentHash, action ≠ .nextBlock parentHash)
    (taken : step config before action = some after) :
    Meanwhile config (Unforced action) before after := by
  cases action with
  | nextBlock parentHash => exact absurd rfl (isBetween parentHash)
  | extrinsic origin call =>
      simp only [step] at taken
      split at taken
      next => cases taken
      next =>
        cases taken
        have ends : (chainCall config origin call).Ends before _ _ :=
          ends_chainCall_meanwhile origin call
        rcases ends.transactional with meanwhile | ⟨same, _⟩
        · exact meanwhile
        · rw [applyExtrinsic, dispatch, same]
          exact .refl
  | awardPoints sequencer points =>
      simp only [step] at taken
      split at taken
      next => cases taken
      next =>
        cases taken
        exact .same rfl id
  | moveBtc source dest amount =>
      simp only [step] at taken
      split at taken
      next => cases taken
      next =>
        obtain ⟨balance, _, rfl⟩ := Option.map_eq_some_iff.mp taken
        exact .same rfl id
  | changeNative native =>
      simp only [step] at taken
      split at taken
      next => cases taken
      next =>
        cases taken
        exact .same rfl id

end Between

theorem ends_onInitialize_regrouped {state : State AccountId Native}
    (sound : Sound config state.stakes) (n : Nat) :
    (onInitialize config n).Ends state
      (fun _ after => Regrouped config state.groups after.groups) fun _ _ => True := by
  rw [onInitialize, ends_bind]
  refine (ends_changeRound state n).imp ?_
  rintro _ middle ⟨opens, rfl⟩
  obtain ⟨native, opened, isMiddle⟩ := opens.frame
  have sameGroups : middle.groups = state.groups := by rw [isMiddle]
  rw [← sameGroups]
  simp only [takeSnapshot, ends_ite, ends_bind, ends_pure]
  refine ⟨fun _ => ?_, fun _ => .inl rfl⟩
  refine (ends_selectTopCandidates (opens.sound sound) _).mono ?_ fun _ _ _ => trivial
  rintro _ _ ⟨rounds, rfl, _⟩
  simp only [writeRounds, onGroups, ends_write, ends_read, ends_discardError, ends_zoom,
    implies_true, and_true]
  refine (ends_triggerGroup_taken _ _ _ _).mono ?_ ?_
  · exact fun _ _ taken => .inr ⟨_, taken⟩
  · exact fun _ _ taken reason isError => .inr ⟨_, taken reason isError⟩

/-- A step of the chain regroups or leaves the groups alone. -/
theorem regrouped_of_step {before after : State AccountId Native}
    {action : Action AccountId Native} (sound : Sound config before.stakes)
    (taken : step config before action = some after) :
    Regrouped config before.groups after.groups := by
  by_cases isBlock : ∃ parentHash, action = .nextBlock parentHash
  · obtain ⟨parentHash, rfl⟩ := isBlock
    have soundEntry : Sound config (enterBlock before parentHash).stakes := sound
    have ends := ends_onInitialize_regrouped soundEntry (before.blockNumber + 1)
    exact ends.of_ok (step_nextBlock_iff.mp taken)
  · cases meanwhile_of_step (not_exists.mp isBlock) taken with
    | same groups => exact .inl groups
    | acts action taken => exact .inr ⟨action, taken⟩

/-- The groups of a reachable state of the chain are reachable in the pallet. -/
theorem Reached.groups {spec : ChainSpec AccountId Native}
    {admits : State AccountId Native → Action AccountId Native → Prop}
    {state : State AccountId Native} (reached : Reached config spec admits state) :
    GroupsReachable config state.groups := by
  obtain ⟨start, built, reaches⟩ := reached
  induction reaches with
  | start =>
      obtain ⟨stakes, _, rounds, _, rfl⟩ := exists_started built
      exact ⟨spec.groupSize, spec.groupNumber, .start⟩
  | next action reaches _ taken ih =>
      have reachable : Reached config spec admits _ := ⟨start, built, reaches⟩
      rcases regrouped_of_step reachable.sound taken with same | ⟨grouping, isStep⟩
      · rw [same]
        exact ih
      · obtain ⟨groupSize, groupNumber, reachesGroups⟩ := ih
        exact ⟨groupSize, groupNumber, reachesGroups.next grouping trivial isStep⟩

end Chain

end Popsicle
