import Popsicle.Delays

/-!
# The life of a candidate

Whether an account is a candidate and what its status is follows a small machine, whatever
else happens on the chain: each move of the machine is caused by an extrinsic of the candidate
itself, or by the root, by a report of its inactivity, or by its exit once that is due.
-/

namespace Popsicle

open Foundation Exec Keyed

variable {AccountId Native : Type} [LinearOrder AccountId] {config : Config AccountId Native}

/-! ## The machine -/

/-- The current round, and the status of an account if it is a candidate. -/
structure Standing where
  round : Nat
  status : Option SequencerStatus
  deriving DecidableEq

/-- What changes the standing of an account. -/
inductive Move where
  | advance (round : Nat)
  | join
  | goOffline
  | goOnline
  | scheduleLeave
  | cancelLeave
  | leave
  deriving DecidableEq

/-- The life of a candidate: it joins as an active one, is idle or active in turn, and leaves
after the delay; a candidate that changes its mind is active again. -/
def lifecycleStep (config : Config AccountId Native) (standing : Standing) :
    Move → Option Standing
  | .advance round =>
      if standing.round ≤ round then some { standing with round } else none
  | .join =>
      if standing.status = none then some { standing with status := some .active } else none
  | .goOffline =>
      if standing.status = some .active then some { standing with status := some .idle } else none
  | .goOnline =>
      if standing.status = some .idle then some { standing with status := some .active } else none
  | .scheduleLeave =>
      match standing.status with
      | some .active | some .idle => some { standing with
          status := some (.leaving
            ((standing.round + config.leaveCandidatesDelay) % (u32Max + 1))) }
      | _ => none
  | .cancelLeave =>
      match standing.status with
      | some (.leaving _) => some { standing with status := some .active }
      | _ => none
  | .leave =>
      match standing.status with
      | some (.leaving due) =>
          if due ≤ standing.round then some { standing with status := none } else none
      | _ => none

/-- The actions that can cause a move of an account. -/
inductive Causes (candidate : AccountId) : Move → Action AccountId Native → Prop where
  | advance (round parentHash : Nat) : Causes candidate (.advance round) (.nextBlock parentHash)
  | join (candidateCount : Nat) :
      Causes candidate .join (.extrinsic (.signed candidate) (.joinCandidates candidateCount))
  | forceJoin (candidateCount : Nat) :
      Causes candidate .join (.extrinsic .root (.forceJoinCandidates candidate candidateCount))
  | goOffline : Causes candidate .goOffline (.extrinsic (.signed candidate) .goOffline)
  | report (reporter : AccountId) :
      Causes candidate .goOffline
        (.extrinsic (.signed reporter) (.notifyInactiveSequencer candidate))
  | goOnline : Causes candidate .goOnline (.extrinsic (.signed candidate) .goOnline)
  | scheduleLeave (candidateCount : Nat) :
      Causes candidate .scheduleLeave
        (.extrinsic (.signed candidate) (.scheduleLeaveCandidates candidateCount))
  | cancelLeave (candidateCount : Nat) :
      Causes candidate .cancelLeave
        (.extrinsic (.signed candidate) (.cancelLeaveCandidates candidateCount))
  | leave (who : AccountId) (candidateDelegationCount : Nat) :
      Causes candidate .leave
        (.extrinsic (.signed who) (.executeLeaveCandidates candidate candidateDelegationCount))

section Machine

variable {before after last : Standing} {move : Move} {moves : List Move}

omit [LinearOrder AccountId] in
theorem leave_of_lifecycleStep (moved : lifecycleStep config before move = some after)
    (present : before.status ≠ none) (gone : after.status = none) :
    move = .leave ∧ ∃ due, before.status = some (.leaving due) := by
  cases move with
  | leave =>
      simp only [lifecycleStep] at moved
      split at moved
      next due leaving => exact ⟨rfl, due, leaving⟩
      next => cases moved
  | advance round =>
      rw [lifecycleStep, Option.ite_none_right_eq_some, Option.some.injEq] at moved
      obtain ⟨_, rfl⟩ := moved
      exact absurd gone present
  | join | goOffline | goOnline =>
      rw [lifecycleStep, Option.ite_none_right_eq_some, Option.some.injEq] at moved
      obtain ⟨_, rfl⟩ := moved
      cases gone
  | scheduleLeave | cancelLeave =>
      simp only [lifecycleStep] at moved
      split at moved
      all_goals
        cases moved
        try cases gone

omit [LinearOrder AccountId] in
/-- Only a candidate that schedules its exit is leaving afterwards. -/
theorem scheduleLeave_of_lifecycleStep (moved : lifecycleStep config before move = some after)
    (stays : ∀ due, before.status ≠ some (.leaving due)) {due : Nat}
    (leaving : after.status = some (.leaving due)) : move = .scheduleLeave := by
  cases move with
  | scheduleLeave => rfl
  | advance round =>
      rw [lifecycleStep, Option.ite_none_right_eq_some, Option.some.injEq] at moved
      obtain ⟨_, rfl⟩ := moved
      exact absurd leaving (stays due)
  | join | goOffline | goOnline =>
      rw [lifecycleStep, Option.ite_none_right_eq_some, Option.some.injEq] at moved
      obtain ⟨_, rfl⟩ := moved
      cases leaving
  | cancelLeave | leave =>
      simp only [lifecycleStep] at moved
      cases moved

omit [LinearOrder AccountId] in
theorem left_of_gone (present : before.status ≠ none)
    (taken : run (lifecycleStep config) before moves = some last) (gone : last.status = none) :
    Move.leave ∈ moves := by
  induction moves generalizing before with
  | nil =>
      cases taken
      exact absurd gone present
  | cons move rest ih =>
      obtain ⟨middle, moved, others⟩ := Option.bind_eq_some_iff.mp taken
      by_cases isGone : middle.status = none
      · rw [(leave_of_lifecycleStep moved present isGone).1]
        exact List.mem_cons_self
      · exact List.mem_cons_of_mem _ (ih isGone others)

omit [LinearOrder AccountId] in
/-- A candidate that was not leaving and is gone has scheduled its exit and then left. -/
theorem announced_of_gone (present : before.status ≠ none)
    (stays : ∀ due, before.status ≠ some (.leaving due))
    (taken : run (lifecycleStep config) before moves = some last) (gone : last.status = none) :
    [Move.scheduleLeave, Move.leave].Sublist moves := by
  induction moves generalizing before with
  | nil =>
      cases taken
      exact absurd gone present
  | cons move rest ih =>
      obtain ⟨middle, moved, others⟩ := Option.bind_eq_some_iff.mp taken
      have isPresent : middle.status ≠ none := by
        intro isGone
        obtain ⟨_, due, leaving⟩ := leave_of_lifecycleStep moved present isGone
        exact stays due leaving
      by_cases isLeaving : ∃ due, middle.status = some (.leaving due)
      · obtain ⟨due, leaving⟩ := isLeaving
        rw [scheduleLeave_of_lifecycleStep moved stays leaving]
        exact .cons_cons _ (List.singleton_sublist.mpr (left_of_gone isPresent others gone))
      · exact .cons _ (ih isPresent (fun due leaving => isLeaving ⟨due, leaving⟩) others)

end Machine

/-- The standing of an account in a state of the chain. -/
def standing (candidate : AccountId) (state : State AccountId Native) : Standing where
  round := state.rounds.round.current
  status := state.stakes.status candidate

/-! ## The moves of stakes -/

/-- One account makes a move, and the status of every other one stays. -/
def Moved (config : Config AccountId Native) (round : Nat) (candidate : AccountId) (move : Move)
    (before after : Stakes AccountId Native) : Prop :=
  lifecycleStep config ⟨round, before.status candidate⟩ move =
      some ⟨round, after.status candidate⟩ ∧
    ∀ other, other ≠ candidate → after.status other = before.status other

section Moves

variable {stakes after : Stakes AccountId Native} {round : RoundInfo}
  {candidate : AccountId} {move : Move}

/-- The metadata of an account is replaced or removed according to a move. -/
theorem moved_put (entry : Option CandidateMetadata)
    (isAfter : after.candidateInfo = stakes.candidateInfo.put candidate entry)
    (allowed : lifecycleStep config ⟨round.current, stakes.status candidate⟩ move =
      some ⟨round.current, entry.map CandidateMetadata.status⟩) :
    Moved config round.current candidate move stakes after := by
  constructor
  · rw [allowed, Stakes.status, isAfter, StorageMap.get_put_self]
  · intro other different
    rw [Stakes.status, Stakes.status, isAfter, StorageMap.get_put_of_ne _ _ different]

theorem moves_joinCandidatesInner (acc : AccountId) (candidateCount : Nat) :
    (joinCandidatesInner config acc candidateCount).Ends stakes
      (fun _ after => Moved config round.current acc .join stakes after) (fun _ _ => True) := by
  simp only [joinCandidatesInner, storeCandidate, CandidateMetadata.insertTop,
    CandidateMetadata.insertBottom, storePool, ends_bind, ends_read, ends_ensure, ends_require,
    ends_write, implies_true, and_true]
  intro fresh _ _ result _ _ _
  refine moved_put (some (CandidateMetadata.new 0)) rfl ?_
  simp [lifecycleStep, Stakes.status, fresh, CandidateMetadata.new]

theorem moves_scheduleLeaveCandidates (sequencer : AccountId) (candidateCount : Nat) :
    (scheduleLeaveCandidates config round sequencer candidateCount).Ends stakes
      (fun _ after => Moved config round.current sequencer .scheduleLeave stakes after)
      (fun _ _ => True) := by
  simp only [scheduleLeaveCandidates, readCandidate, CandidateMetadata.scheduleLeave, storePool,
    storeCandidate, ends_bind, ends_read, ends_require, ends_ensure, ends_u32Result_nat,
    ends_ite, ends_write, ends_pure, implies_true, and_true]
  intro info stored stays _ _
  have moved : ∀ after : Stakes AccountId Native, after.candidateInfo =
      stakes.candidateInfo.insert sequencer { info with
        status := .leaving ((round.current + config.leaveCandidatesDelay) % (u32Max + 1)) } →
      Moved config round.current sequencer .scheduleLeave stakes after := by
    intro after isAfter
    refine moved_put (some _) isAfter ?_
    cases status : info.status with
    | active | idle => simp [lifecycleStep, Stakes.status, stored, status]
    | leaving due => simp [CandidateMetadata.isLeaving, status] at stays
  exact ⟨fun _ => moved _ rfl, fun _ => moved _ rfl⟩

theorem moves_goOfflineInner (sequencer : AccountId) :
    (goOfflineInner sequencer).Ends stakes
      (fun _ after => Moved config round.current sequencer .goOffline stakes after)
      (fun fault after => (∃ reason, fault = .error reason) ∧ after = stakes) := by
  simp only [goOfflineInner, readCandidate, CandidateMetadata.goOffline, storePool,
    storeCandidate, ends_bind, ends_read, ends_require, ends_ensure, ends_ite, ends_write]
  refine ⟨fun info stored => ⟨fun active => ?_, fun _ => ⟨⟨_, rfl⟩, trivial⟩⟩,
    fun _ => ⟨⟨_, rfl⟩, trivial⟩⟩
  have moved : ∀ after : Stakes AccountId Native, after.candidateInfo =
      stakes.candidateInfo.insert sequencer { info with status := .idle } →
      Moved config round.current sequencer .goOffline stakes after := by
    intro after isAfter
    refine moved_put (some _) isAfter ?_
    cases status : info.status with
    | active => simp [lifecycleStep, Stakes.status, stored, status]
    | idle | leaving => simp [CandidateMetadata.isActive, status] at active
  exact ⟨fun _ => moved _ rfl, fun _ => moved _ rfl⟩

theorem moves_goOnlineInner (sequencer : AccountId) :
    (goOnlineInner config sequencer).Ends stakes
      (fun _ after => Moved config round.current sequencer .goOnline stakes after)
      (fun _ _ => True) := by
  simp only [goOnlineInner, readCandidate, storePool, storeCandidate, ends_bind,
    ends_read, ends_require, ends_ensure, ends_write, implies_true, and_true]
  intro info stored inactive stays result _ _
  refine moved_put (some info.goOnline) rfl ?_
  cases status : info.status with
  | active => simp [CandidateMetadata.isActive, status] at inactive
  | leaving due => simp [CandidateMetadata.isLeaving, status] at stays
  | idle => simp [lifecycleStep, Stakes.status, stored, status, CandidateMetadata.goOnline]

theorem moves_cancelLeaveCandidates (sequencer : AccountId) (candidateCount : Nat) :
    (cancelLeaveCandidates config sequencer candidateCount).Ends stakes
      (fun _ after => Moved config round.current sequencer .cancelLeave stakes after)
      (fun _ _ => True) := by
  simp only [cancelLeaveCandidates, readCandidate, storePool, storeCandidate, ends_bind,
    ends_read, ends_require, ends_ensure, ends_write, implies_true, and_true]
  intro info stored leaving _ result _ _
  refine moved_put (some info.goOnline) rfl ?_
  cases status : info.status with
  | active | idle => simp [CandidateMetadata.isLeaving, status] at leaving
  | leaving due => simp [lifecycleStep, Stakes.status, stored, status, CandidateMetadata.goOnline]

/-- A candidate that has left was leaving, and its exit was due. -/
theorem Exited.moved {candidateDelegationCount : Nat}
    (exited : Exited config round candidate candidateDelegationCount stakes after) :
    Moved config round.current candidate .leave stakes after := by
  cases exited with
  | left info when top bottom returned native stored leaving due =>
      refine moved_put none rfl ?_
      simp [lifecycleStep, Stakes.status, stored, leaving, due]

end Moves

/-! ## Extrinsics -/

/-- An extrinsic makes at most the moves it causes. -/
def MovesAtMost (config : Config AccountId Native) (round : Nat)
    (action : Action AccountId Native) (before after : Stakes AccountId Native) : Prop :=
  SameStatuses before after ∨ ∃ candidate move, Causes candidate move action ∧
    Moved config round candidate move before after

section Calls

variable {stakes : Stakes AccountId Native} {round : RoundInfo} {who : AccountId}
  {call : Call AccountId}

/-! ### Extrinsics that move no one -/

omit [LinearOrder AccountId] in
theorem stays_chargeRewardAccount (amount : Nat) :
    (chargeRewardAccount config who amount).Ends stakes (fun _ after => SameStatuses stakes after)
      (fun _ _ => True) := by
  simp only [chargeRewardAccount, ends_bind, ends_read, ends_require, ends_write]
  exact ⟨fun _ _ _ => rfl, fun _ => trivial⟩

theorem stays_scheduleCandidateBondLess (less : Nat) :
    (scheduleCandidateBondLess config round who less).Ends stakes
      (fun _ after => SameStatuses stakes after) (fun _ _ => True) := by
  simp only [scheduleCandidateBondLess, readCandidate, CandidateMetadata.scheduleBondLess,
    storeCandidate, ends_bind, ends_read, ends_require, ends_ensure, ends_write,
    ends_u32Result_nat, ends_pure, implies_true, and_true]
  exact fun info stored _ _ _ => sameStatuses_insert stored rfl rfl

theorem stays_cancelCandidateBondLess :
    (cancelCandidateBondLess who).Ends stakes (fun _ after => SameStatuses stakes after)
      (fun _ _ => True) := by
  simp only [cancelCandidateBondLess, readCandidate, CandidateMetadata.cancelBondLess,
    storeCandidate, ends_bind, ends_read, ends_require, ends_write, ends_pure, implies_true,
    and_true]
  exact fun info stored _ _ => sameStatuses_insert stored rfl rfl

theorem stays_delegationScheduleRevoke (sequencer : AccountId) :
    (delegationScheduleRevoke config round sequencer who).Ends stakes
      (fun _ after => SameStatuses stakes after) (fun _ _ => True) := by
  simp only [delegationScheduleRevoke, readDelegator, pushRequest, storeRequests,
    storeDelegator, ends_bind, ends_read, ends_require, ends_ensure, ends_write, ends_pure,
    implies_true, and_true]
  exact fun _ _ _ _ _ _ _ => rfl

theorem stays_delegationScheduleBondDecrease (sequencer : AccountId) (less : Nat) :
    (delegationScheduleBondDecrease config round sequencer who less).Ends stakes
      (fun _ after => SameStatuses stakes after) (fun _ _ => True) := by
  simp only [delegationScheduleBondDecrease, readDelegator, pushRequest, storeRequests,
    storeDelegator, ends_bind, ends_read, ends_require, ends_ensure, ends_write, ends_pure,
    implies_true, and_true]
  exact fun _ _ _ _ _ _ _ _ _ _ => rfl

theorem stays_delegationCancelRequest (sequencer : AccountId) :
    (delegationCancelRequest sequencer who).Ends stakes
      (fun _ after => SameStatuses stakes after) (fun _ _ => True) := by
  simp only [delegationCancelRequest, readDelegator, storeRequests, storeDelegator, ends_bind,
    ends_read, ends_require, ends_write, implies_true, and_true]
  exact fun _ _ _ _ _ => rfl

theorem stays_hotfix (candidates : List AccountId) :
    (hotfixRemoveDelegationRequestsExitedCandidates candidates).Ends stakes
      (fun _ after => SameStatuses stakes after) (fun _ _ => True) := by
  simp only [hotfixRemoveDelegationRequestsExitedCandidates, ends_bind, ends_read,
    ends_ensure, ends_write, implies_true, and_true]
  exact fun _ _ _ => rfl

/-! ### Every extrinsic on stakes -/

omit [LinearOrder AccountId] in
theorem movesAtMost_of_stays {α : Type} {body : StakesM AccountId Native α}
    {excuse : Fault → Stakes AccountId Native → Prop} {action : Action AccountId Native}
    (ends : body.Ends stakes (fun _ after => SameStatuses stakes after) excuse) :
    body.Ends stakes (fun _ after => MovesAtMost config round.current action stakes after)
      (fun _ _ => True) :=
  ends.mono (fun _ _ stays => .inl stays) fun _ _ _ => trivial

theorem movesAtMost_of_quiet {α : Type} {body : StakesM AccountId Native α}
    {excuse : Fault → Stakes AccountId Native → Prop} {action : Action AccountId Native}
    (ends : body.Ends stakes
      (fun _ after => Quiet config (fun _ => True) (fun _ => True) stakes after) excuse) :
    body.Ends stakes (fun _ after => MovesAtMost config round.current action stakes after)
      (fun _ _ => True) :=
  ends.mono (fun _ _ quiet => .inl quiet.2) fun _ _ _ => trivial

omit [LinearOrder AccountId] in
theorem movesAtMost_of_moved {α : Type} {body : StakesM AccountId Native α}
    {excuse : Fault → Stakes AccountId Native → Prop} {action : Action AccountId Native}
    {candidate : AccountId} {move : Move} (causes : Causes candidate move action)
    (ends : body.Ends stakes
      (fun _ after => Moved config round.current candidate move stakes after) excuse) :
    body.Ends stakes (fun _ after => MovesAtMost config round.current action stakes after)
      (fun _ _ => True) :=
  ends.mono (fun _ _ moved => .inr ⟨_, _, causes, moved⟩) fun _ _ _ => trivial

theorem ends_movesAtMost (sound : Sound config stakes)
    {body : StakesM AccountId Native Unit} (isBody : stakesCall config round who call = some body) :
    body.Ends stakes
      (fun _ after => MovesAtMost config round.current (.extrinsic (.signed who) call) stakes after)
      (fun _ _ => True) := by
  cases call with
  | chargeRewardAccount amount =>
      cases isBody
      exact movesAtMost_of_stays (stays_chargeRewardAccount amount)
  | joinCandidates candidateCount =>
      cases isBody
      exact movesAtMost_of_moved (.join candidateCount)
        (moves_joinCandidatesInner who candidateCount)
  | scheduleLeaveCandidates candidateCount =>
      cases isBody
      exact movesAtMost_of_moved (.scheduleLeave candidateCount)
        (moves_scheduleLeaveCandidates who candidateCount)
  | executeLeaveCandidates candidate candidateDelegationCount =>
      cases isBody
      exact movesAtMost_of_moved (.leave who candidateDelegationCount)
        ((exited_executeLeaveCandidates sound round candidate candidateDelegationCount).imp
          fun _ _ exited => exited.moved)
  | cancelLeaveCandidates candidateCount =>
      cases isBody
      exact movesAtMost_of_moved (.cancelLeave candidateCount)
        (moves_cancelLeaveCandidates who candidateCount)
  | goOffline =>
      cases isBody
      exact movesAtMost_of_moved .goOffline (moves_goOfflineInner who)
  | goOnline =>
      cases isBody
      exact movesAtMost_of_moved .goOnline (moves_goOnlineInner who)
  | candidateBondMore more =>
      cases isBody
      exact movesAtMost_of_quiet (quiet_candidateBondMoreInner sound who more trivial)
  | scheduleCandidateBondLess less =>
      cases isBody
      exact movesAtMost_of_stays (stays_scheduleCandidateBondLess less)
  | executeCandidateBondLess candidate =>
      cases isBody
      exact movesAtMost_of_quiet (quiet_executeCandidateBondLessInner sound round candidate)
  | cancelCandidateBondLess =>
      cases isBody
      exact movesAtMost_of_stays stays_cancelCandidateBondLess
  | delegate candidate amount candidateDelegationCount delegationCount =>
      cases isBody
      exact movesAtMost_of_quiet (quiet_delegateInner sound amount candidateDelegationCount
        delegationCount trivial)
  | scheduleRevokeDelegation sequencer =>
      cases isBody
      exact movesAtMost_of_stays (stays_delegationScheduleRevoke sequencer)
  | delegatorBondMore candidate more =>
      cases isBody
      rw [ends_bind]
      exact movesAtMost_of_quiet (quiet_delegationBondMoreWithoutEvent sound more trivial)
  | scheduleDelegatorBondLess candidate less =>
      cases isBody
      exact movesAtMost_of_stays (stays_delegationScheduleBondDecrease candidate less)
  | executeDelegationRequest delegator candidate =>
      cases isBody
      exact movesAtMost_of_quiet
        (quiet_delegationExecuteScheduledRequest sound round candidate fun _ => trivial)
  | cancelDelegationRequest candidate =>
      cases isBody
      exact movesAtMost_of_stays (stays_delegationCancelRequest candidate)
  | hotfixRemoveDelegationRequestsExitedCandidates candidates =>
      cases isBody
      exact movesAtMost_of_stays (stays_hotfix candidates)
  | setSequencerCommission | setBlocksPerRound | notifyInactiveSequencer | enableMarkingOffline
  | forceJoinCandidates | setGroupMetric | benchmarkTriggerGroup | registerProcessor =>
      cases isBody

theorem ends_chainCall_moves {state : State AccountId Native} (sound : Sound config state.stakes)
    (origin : Origin AccountId) (call : Call AccountId) :
    (chainCall config origin call).Ends state
      (fun _ after => MovesAtMost config state.rounds.round.current (.extrinsic origin call)
        state.stakes after.stakes)
      (fun _ _ => True) := by
  have nothing : SameStatuses state.stakes state.stakes := fun _ => rfl
  have groups : ∀ {body : GroupsM AccountId Unit}, (onGroups body).Ends state
      (fun _ after => MovesAtMost config state.rounds.round.current (.extrinsic origin call)
        state.stakes after.stakes) (fun _ (after : State AccountId Native) =>
          after.stakes = state.stakes) := by
    intro body
    rw [onGroups, ends_zoom]
    exact .of_forall (fun _ _ => .inl nothing) fun _ _ => rfl
  by_cases isOnStakes : call.OnStakes
  · rw [chainCall_of_onStakes isOnStakes]
    simp only [ends_bind, ends_ensureSigned, ends_read]
    refine ⟨?_, fun _ => trivial⟩
    rintro who rfl
    split
    next body isBody =>
      rw [onStakes, ends_zoom]
      exact ends_movesAtMost sound isBody
    next => exact .inl nothing
  cases call with
  | setSequencerCommission new =>
      simp only [chainCall, setSequencerCommission, writeRounds, ends_bind, ends_ensureRoot,
        ends_read, ends_ensure, ends_write, implies_true, and_true]
      exact fun _ _ => .inl nothing
  | setBlocksPerRound new =>
      simp only [chainCall, setBlocksPerRound, writeRounds, totalSelected, ends_bind,
        ends_ensureRoot, ends_read, ends_ensure, implies_true, and_true]
      refine fun _ _ _ => ends_u32Result _ _ (fun total => ?_) trivial
      simp only [ends_write]
      exact fun _ => .inl nothing
  | notifyInactiveSequencer sequencer =>
      simp only [chainCall, notifyInactiveSequencer, totalSelected, ends_bind, ends_read,
        ends_ensure, ends_ensureSigned, implies_true, and_true]
      refine fun _ => ?_
      rintro who rfl
      refine ends_u32Result _ _ (fun total => ?_) trivial
      refine ends_u32Result _ _ (fun twice => ?_) trivial
      simp only [ends_discardError, onStakes, ends_zoom, implies_true, and_true]
      refine fun _ _ _ => (moves_goOfflineInner sequencer).mono
        (fun _ _ moved => .inr ⟨sequencer, .goOffline, .report who, moved⟩) ?_
      rintro _ _ ⟨_, rfl⟩
      exact fun _ _ => .inl nothing
  | enableMarkingOffline value =>
      simp only [chainCall, writeRounds, ends_bind, ends_ensureRoot, ends_write, implies_true,
        and_true]
      exact fun _ => .inl nothing
  | forceJoinCandidates account candidateCount =>
      simp only [chainCall, onStakes, ends_bind, ends_ensureRoot, ends_zoom, implies_true, and_true]
      rintro rfl
      exact (moves_joinCandidatesInner account candidateCount).imp
        fun _ _ moved => .inr ⟨account, .join, .forceJoin candidateCount, moved⟩
  | setGroupMetric groupSize groupNumber =>
      simp only [chainCall, ends_bind, ends_ensureRoot, implies_true, and_true]
      exact fun _ => groups.mono (fun _ _ => id) fun _ _ _ => trivial
  | benchmarkTriggerGroup candidates startingBlock roundIndex =>
      simp only [chainCall, ends_bind, ends_ensureRoot, ends_read, ends_discardError, implies_true,
        and_true]
      refine fun _ => groups.mono (fun _ _ => id) fun _ after same _ _ => .inl fun candidate => ?_
      rw [same]
  | registerProcessor ipAddress =>
      simp only [chainCall, ends_bind, ends_ensureSigned, implies_true, and_true]
      exact fun _ _ => groups.mono (fun _ _ => id) fun _ _ _ => trivial
  | chargeRewardAccount | joinCandidates | scheduleLeaveCandidates | executeLeaveCandidates
  | cancelLeaveCandidates | goOffline | goOnline | candidateBondMore | scheduleCandidateBondLess
  | executeCandidateBondLess | cancelCandidateBondLess | delegate | scheduleRevokeDelegation
  | delegatorBondMore | scheduleDelegatorBondLess | executeDelegationRequest
  | cancelDelegationRequest | hotfixRemoveDelegationRequestsExitedCandidates =>
      exact absurd trivial isOnStakes

end Calls

/-! ## Runs -/

section Runs

variable {spec : ChainSpec AccountId Native} {state after later : State AccountId Native}
  {action : Action AccountId Native}

theorem Update.current_eq {may : Withdrawal AccountId → Prop} {signs : AccountId → Prop}
    (update : Update config may signs state after) :
    after.rounds.round.current = state.rounds.round.current := by
  cases update <;> rfl

/-- A step makes at most one move of an account, and one that its action causes. -/
theorem standing_of_step (reachable : Reachable config spec state)
    (taken : step config state action = some after) (candidate : AccountId) :
    standing candidate after = standing candidate state ∨
      ∃ move, Causes candidate move action ∧
        lifecycleStep config (standing candidate state) move = some (standing candidate after) := by
  have later := reachable.current_le taken
  have sound := reachable.sound
  cases action with
  | nextBlock parentHash =>
      have entry : Sound config (enterBlock state parentHash).stakes := sound
      have block := (ends_onInitialize entry (state.blockNumber + 1)).of_ok
        (step_nextBlock_iff.mp taken)
      obtain ⟨⟨native, isStakes⟩, _⟩ := block.frame
      refine .inr ⟨.advance after.rounds.round.current, .advance _ parentHash, ?_⟩
      have same : after.stakes.status candidate = state.stakes.status candidate := by
        rw [isStakes]
        rfl
      simp [lifecycleStep, standing, later, same]
  | extrinsic origin call =>
      simp only [step] at taken
      split at taken
      next => cases taken
      next =>
        cases taken
        have update : Update config (fun _ => True) (fun _ => True) state
            (applyExtrinsic config state origin call) :=
          update_applyExtrinsic sound origin call (fun _ _ => trivial)
            (allows_any state (.extrinsic origin call))
        have sameRound := update.current_eq
        have moves : MovesAtMost config state.rounds.round.current (.extrinsic origin call)
            state.stakes (applyExtrinsic config state origin call).stakes := by
          rcases (ends_chainCall_moves sound origin call).transactional with moved | ⟨same, _⟩
          · exact moved
          · refine .inl fun account => ?_
            rw [applyExtrinsic, dispatch, same]
        rcases moves with same | ⟨account, move, causes, moved, others⟩
        · refine .inl ?_
          rw [standing, standing, sameRound, same]
        · by_cases isOwn : candidate = account
          · subst isOwn
            refine .inr ⟨move, causes, ?_⟩
            rw [standing, standing, sameRound, moved]
          · refine .inl ?_
            rw [standing, standing, sameRound, others candidate isOwn]
  | awardPoints sequencer points =>
      simp only [step] at taken
      split at taken
      next => cases taken
      next =>
        cases taken
        exact .inl rfl
  | moveBtc source dest amount =>
      simp only [step] at taken
      split at taken
      next => cases taken
      next =>
        rw [Option.map_eq_some_iff] at taken
        obtain ⟨balance, _, rfl⟩ := taken
        exact .inl rfl
  | changeNative native =>
      simp only [step] at taken
      split at taken
      next => cases taken
      next =>
        cases taken
        exact .inl rfl

/-- A reachable state stays one, and the standing of an account is as before or takes a move
that the action causes. -/
theorem follows_lifecycle (candidate : AccountId) (before : State AccountId Native)
    (action : Action AccountId Native) (after : State AccountId Native)
    (reached : Reachable config spec before) (taken : step config before action = some after) :
    Reachable config spec after ∧
      (standing candidate after = standing candidate before ∨
        ∃ move, Causes candidate move action ∧
          lifecycleStep config (standing candidate before) move =
            some (standing candidate after)) :=
  ⟨reached.next trivial taken, standing_of_step reached taken candidate⟩

/-- Over every run the standing of an account goes through moves of its life, and each move is
caused by an action of the run, in the same order. -/
theorem lifecycles_refined (reachable : Reachable config spec state)
    {actions : List (Action AccountId Native)}
    (taken : run (step config) state actions = some later) (candidate : AccountId) :
    ∃ moves, run (lifecycleStep config) (standing candidate state) moves =
        some (standing candidate later) ∧
      moves.SublistForall₂ (Causes candidate) actions :=
  run_follows (follows_lifecycle candidate) reachable taken

/-- A candidate that is not leaving is removed only after it has signed its own exit. -/
theorem leaves_on_its_own (reachable : Reachable config spec state)
    {actions : List (Action AccountId Native)}
    (taken : run (step config) state actions = some later) {candidate : AccountId}
    (present : state.stakes.status candidate ≠ none)
    (stays : ∀ due, state.stakes.status candidate ≠ some (.leaving due))
    (gone : later.stakes.status candidate = none) :
    ∃ candidateCount who candidateDelegationCount,
      [.extrinsic (.signed candidate) (.scheduleLeaveCandidates candidateCount),
        .extrinsic (.signed who)
          (.executeLeaveCandidates candidate candidateDelegationCount)].Sublist actions := by
  obtain ⟨moves, moved, caused⟩ := run_follows (follows_lifecycle candidate) reachable taken
  have announced := announced_of_gone present stays moved gone
  obtain ⟨causes, related, sublist⟩ :=
    List.sublistForall₂_iff.mp (sublistForall₂_of_sublist announced caused)
  cases related with
  | cons first others =>
      cases others with
      | cons second nothing =>
          cases nothing
          cases first
          cases second
          exact ⟨_, _, _, sublist⟩

end Runs

/-- A candidate goes offline, schedules its exit and is removed by another one. -/
def quitRun : List (Action Nat (Nat → Nat)) :=
  [.nextBlock 0,
    .extrinsic (.signed 1) .goOffline,
    .extrinsic (.signed 1) (.scheduleLeaveCandidates 2)] ++
  List.replicate 9 (.nextBlock 0) ++
  [.extrinsic (.signed 2) (.executeLeaveCandidates 1 0)]

theorem exists_quitRun :
    ∃ state later : State Nat (Nat → Nat), Reachable mockRuntime (mockGenesis [1, 2] []) state ∧
      run (step mockRuntime) state quitRun = some later ∧
      state.stakes.status 1 = some .active ∧ later.stakes.status 1 = none := by
  obtain ⟨state, isPlayed, continued⟩ := Option.bind_eq_some_iff.mp
    (show ((played mockRuntime (mockGenesis [1, 2] []) []).bind fun state =>
      (run (step mockRuntime) state quitRun).map fun later =>
        (state.stakes.status 1, later.stakes.status 1)) = some (some .active, none) by
      decide +kernel)
  obtain ⟨later, taken, observed⟩ := Option.map_eq_some_iff.mp continued
  obtain ⟨first, last⟩ := Prod.mk.inj observed
  exact ⟨state, later, Reached.of_played_any isPlayed, taken, first, last⟩

theorem lifecycles_refined_quit :
    ∃ state later : State Nat (Nat → Nat), later.stakes.status 1 = none ∧
      ∃ moves, run (lifecycleStep mockRuntime) (standing 1 state) moves =
          some (standing 1 later) ∧
        moves.SublistForall₂ (Causes 1) quitRun := by
  obtain ⟨state, later, reachable, taken, _, gone⟩ := exists_quitRun
  exact ⟨state, later, gone, lifecycles_refined reachable taken 1⟩

theorem leaves_on_its_own_quit :
    ∃ candidateCount who candidateDelegationCount,
      [.extrinsic (.signed 1) (.scheduleLeaveCandidates candidateCount),
        .extrinsic (.signed who)
          (.executeLeaveCandidates 1 candidateDelegationCount)].Sublist quitRun := by
  obtain ⟨state, later, reachable, taken, active, gone⟩ := exists_quitRun
  refine leaves_on_its_own reachable taken ?_ ?_ gone
  · rw [active]
    exact Option.some_ne_none _
  · intro due leaving
    rw [active] at leaving
    cases leaving

end Popsicle
