import Popsicle.Runtime
import Popsicle.CandidateOps
import Popsicle.DelegatorOps

/-!
# What happens between blocks

`Update` says once what extrinsics and the other actions between two blocks can
do to the state of the chain.
-/

namespace Popsicle

open Foundation Exec Keyed

variable {AccountId Native : Type} [LinearOrder AccountId] {config : Config AccountId Native}

section Rules

variable {σ : Type} {state : σ} {excuse : Fault → σ → Prop}

theorem ends_discardError {body : Exec σ Fault Unit} {post : Unit → σ → Prop} :
    (discardError body).Ends state post excuse ↔
      body.Ends state post fun fault after =>
        (∀ reason, fault = .error reason → post () after) ∧
          ∀ site, fault = .panic site → excuse (.panic site) after := by
  rw [discardError, ends_handle]
  refine Iff.of_eq (congrArg _ (funext fun fault => funext fun after => ?_))
  cases fault <;> simp

theorem ends_attempt {body : Exec σ Fault Unit} {post : Bool → σ → Prop} :
    (attempt body).Ends state post excuse ↔
      body.Ends state (fun _ after => post true after) fun fault after =>
        (∀ reason, fault = .error reason → post false after) ∧
          ∀ site, fault = .panic site → excuse (.panic site) after := by
  rw [attempt, ends_handle, ends_bind]
  simp only [ends_pure]
  refine Iff.of_eq (congrArg _ (funext fun fault => funext fun after => ?_))
  cases fault <;> simp

omit [LinearOrder AccountId] in
theorem ends_ensureSigned {origin : Origin AccountId} {post : AccountId → σ → Prop} :
    (ensureSigned origin : Exec σ Fault AccountId).Ends state post excuse ↔
      (∀ who, origin = .signed who → post who state) ∧
        ((∀ who, origin ≠ .signed who) → excuse (.error .badOrigin) state) := by
  cases origin <;> simp [ensureSigned]

omit [LinearOrder AccountId] in
theorem ends_ensureRoot {origin : Origin AccountId} {post : Unit → σ → Prop} :
    (ensureRoot origin : Exec σ Fault Unit).Ends state post excuse ↔
      (origin = .root → post () state) ∧
        (origin ≠ .root → excuse (.error .badOrigin) state) := by
  cases origin <;> simp [ensureRoot]

end Rules

/-! ## Updates -/

/-- What an action between two blocks does to the state of the chain.  The
predicates restrict the withdrawals and the accounts that put in BTC. -/
inductive Update (config : Config AccountId Native) (may : Withdrawal AccountId → Prop)
    (signs : AccountId → Prop) (before : State AccountId Native) :
    State AccountId Native → Prop where
  | stakes (stakes : Stakes AccountId Native)
      (settles : Settles config may signs before.stakes stakes) :
      Update config may signs before { before with stakes }
  | commission (sequencerCommission : Perbill) :
      Update config may signs before
        { before with rounds := { before.rounds with sequencerCommission } }
  | length (length : Nat) (atLeast : config.minBlocksPerRound ≤ length) :
      Update config may signs before
        { before with rounds := { before.rounds with
            round := { before.rounds.round with length } } }
  | marking (enableMarkingOffline : Bool) :
      Update config may signs before
        { before with rounds := { before.rounds with enableMarkingOffline } }
  | groups (groups : Groups AccountId) : Update config may signs before { before with groups }

/-- The extrinsics of the grouping pallet. -/
def Call.ofGrouping : Call AccountId → Bool
  | .setGroupMetric .. | .benchmarkTriggerGroup .. | .registerProcessor .. => true
  | _ => false

/-- The due withdrawals of a call are allowed. -/
def Withdraws (may : Withdrawal AccountId → Prop) (round : RoundInfo)
    (stakes : Stakes AccountId Native) : Call AccountId → Prop
  | .executeLeaveCandidates candidate candidateDelegationCount =>
      ExitDue round stakes candidate candidateDelegationCount → may (.exit candidate)
  | .executeDelegationRequest delegator candidate =>
      DecreaseDue round stakes candidate delegator → may (.decrease delegator candidate)
  | .scheduleLeaveCandidates _ | .scheduleCandidateBondLess _ | .scheduleRevokeDelegation _
  | .scheduleDelegatorBondLess _ _ => may .schedules
  | _ => True

section Dispatch

variable {may : Withdrawal AccountId → Prop} {signs : AccountId → Prop}
  {state : State AccountId Native}

/-- What a call runs into when it does not succeed. -/
def Stops (config : Config AccountId Native) (call : Call AccountId)
    (state : State AccountId Native) (fault : Fault) : Prop :=
  Safe config state.stakes → call.ofGrouping = false →
    (∃ reason, fault = .error reason) ∨ fault = .panic .arithmeticOverflow

theorem stops_error {call : Call AccountId} (reason : DispatchError) :
    Stops config call state (.error reason) :=
  fun _ _ => .inl ⟨reason, rfl⟩

theorem ends_onStakes {body : StakesM AccountId Native Unit} {call : Call AccountId}
    (body_ends : body.Ends state.stakes
      (fun _ after => Settles config may signs state.stakes after)
      (fun fault _ => Excused config state.stakes fault)) :
    (onStakes body).Ends state (fun _ after => Update config may signs state after)
      (fun fault _ => Stops config call state fault) := by
  rw [onStakes, ends_zoom]
  exact body_ends.mono (fun _ after settles => .stakes after settles)
    fun _ _ excused safe _ => excused safe

theorem stops_grouping {call : Call AccountId} (grouping : call.ofGrouping = true)
    (fault : Fault) : Stops config call state fault := by
  intro _ other
  rw [grouping] at other
  cases other

theorem ends_onGroups (body : GroupsM AccountId Unit) :
    (onGroups body : ChainM AccountId Native Unit).Ends state
      (fun _ after => Update config may signs state after)
      (fun _ after => Update config may signs state after) := by
  rw [onGroups, ends_zoom]
  have anything : body.Ends state.groups (fun _ _ => True) fun _ _ => True := by
    unfold Ends
    split <;> trivial
  exact anything.mono (fun _ after _ => .groups after) fun _ after _ => .groups after

/-- An extrinsic that only concerns stakes settles, or fails with an error. -/
theorem ends_stakesCall {stakes : Stakes AccountId Native} {round : RoundInfo}
    {who : AccountId} {call : Call AccountId} {body : StakesM AccountId Native Unit}
    (sound : Sound config stakes) (signed : signs who) (allowed : Withdraws may round stakes call)
    (isBody : stakesCall config round who call = some body) :
    body.Ends stakes (fun _ after => Settles config may signs stakes after)
      (fun fault _ => Excused config stakes fault) := by
  have settled : ∀ {body : StakesM AccountId Native Unit},
      body.Ends stakes (fun _ after => Settles config may signs stakes after)
        (fun fault _ => ∃ reason, fault = .error reason) →
      body.Ends stakes (fun _ after => Settles config may signs stakes after)
        (fun fault _ => Excused config stakes fault) :=
    fun ends => ends.mono (fun _ _ settles => settles) fun _ _ error _ => .inl error
  cases call with
  | chargeRewardAccount amount =>
      cases isBody
      simp only [chargeRewardAccount, ends_bind, ends_read, ends_require, ends_write]
      exact ⟨fun native _ => ⟨.native native, sound.pool⟩, fun _ => excused_error _⟩
  | joinCandidates candidateCount =>
      cases isBody
      exact settled (ends_joinCandidatesInner sound who candidateCount)
  | scheduleLeaveCandidates candidateCount =>
      cases isBody
      exact ends_scheduleLeaveCandidates sound round who candidateCount allowed
  | executeLeaveCandidates candidate candidateDelegationCount =>
      cases isBody
      refine (ends_executeLeaveCandidates sound round candidate candidateDelegationCount
        allowed).mono (fun _ _ settles => settles) fun _ _ outcome safe => .inl (outcome safe).1
  | cancelLeaveCandidates candidateCount =>
      cases isBody
      exact settled (ends_cancelLeaveCandidates sound who candidateCount)
  | goOffline =>
      cases isBody
      exact (ends_goOfflineInner sound who).mono (fun _ _ settles => settles)
        fun _ _ outcome _ => .inl outcome.1
  | goOnline =>
      cases isBody
      exact settled (ends_goOnlineInner sound who)
  | candidateBondMore more =>
      cases isBody
      exact settled (ends_candidateBondMoreInner sound who more signed)
  | scheduleCandidateBondLess less =>
      cases isBody
      exact ends_scheduleCandidateBondLess sound round who less allowed
  | executeCandidateBondLess candidate =>
      cases isBody
      exact (ends_executeCandidateBondLessInner sound round candidate).mono
        (fun _ _ settles => settles) fun _ _ outcome _ => .inl outcome.1
  | cancelCandidateBondLess =>
      cases isBody
      exact settled (ends_cancelCandidateBondLess sound who)
  | delegate candidate amount candidateDelegationCount delegationCount =>
      cases isBody
      exact ends_delegateInner sound amount candidateDelegationCount delegationCount signed
  | scheduleRevokeDelegation sequencer =>
      cases isBody
      exact settled (ends_delegationScheduleRevoke sound round sequencer allowed)
  | delegatorBondMore candidate more =>
      cases isBody
      rw [ends_bind]
      exact ends_delegationBondMoreWithoutEvent sound more signed
  | scheduleDelegatorBondLess candidate less =>
      cases isBody
      exact settled (ends_delegationScheduleBondDecrease sound round candidate less allowed)
  | executeDelegationRequest delegator candidate =>
      cases isBody
      exact (ends_delegationExecuteScheduledRequest sound round candidate allowed).mono
        (fun _ _ settles => settles) fun _ _ outcome safe => .inl (outcome safe).1
  | cancelDelegationRequest candidate =>
      cases isBody
      exact settled (ends_delegationCancelRequest sound candidate)
  | hotfixRemoveDelegationRequestsExitedCandidates candidates =>
      cases isBody
      exact settled (ends_hotfixRemoveDelegationRequestsExitedCandidates sound candidates)
  | setSequencerCommission | setBlocksPerRound | notifyInactiveSequencer | enableMarkingOffline
  | forceJoinCandidates | setGroupMetric | benchmarkTriggerGroup | registerProcessor =>
      cases isBody

/-- The extrinsics that only change what their signer staked or is owed. -/
def Call.OnStakes : Call AccountId → Prop
  | .setSequencerCommission .. | .setBlocksPerRound .. | .notifyInactiveSequencer ..
  | .enableMarkingOffline .. | .forceJoinCandidates .. | .setGroupMetric ..
  | .benchmarkTriggerGroup .. | .registerProcessor .. => False
  | _ => True

theorem chainCall_of_onStakes {origin : Origin AccountId} {call : Call AccountId}
    (isOnStakes : call.OnStakes) :
    chainCall config origin call = (do
      let who ← ensureSigned origin
      let state ← read
      match stakesCall config state.rounds.round who call with
      | some body => onStakes body
      | none => return ()) := by
  cases call with
  | setSequencerCommission | setBlocksPerRound | notifyInactiveSequencer | enableMarkingOffline
  | forceJoinCandidates | setGroupMetric | benchmarkTriggerGroup | registerProcessor =>
      cases isOnStakes
  | chargeRewardAccount | joinCandidates | scheduleLeaveCandidates | executeLeaveCandidates
  | cancelLeaveCandidates | goOffline | goOnline | candidateBondMore | scheduleCandidateBondLess
  | executeCandidateBondLess | cancelCandidateBondLess | delegate | scheduleRevokeDelegation
  | delegatorBondMore | scheduleDelegatorBondLess | executeDelegationRequest
  | cancelDelegationRequest | hotfixRemoveDelegationRequestsExitedCandidates =>
      rfl

theorem ends_chainCall (sound : Sound config state.stakes) (origin : Origin AccountId)
    (call : Call AccountId) (signed : ∀ who, origin = .signed who → signs who)
    (allowed : Withdraws may state.rounds.round state.stakes call) :
    (chainCall config origin call).Ends state
      (fun _ after => Update config may signs state after)
      (fun fault _ => Stops config call state fault) := by
  by_cases isOnStakes : call.OnStakes
  · rw [chainCall_of_onStakes isOnStakes]
    simp only [ends_bind, ends_ensureSigned, ends_read]
    refine ⟨fun who isWho => ?_, fun _ => stops_error _⟩
    split
    next body isBody =>
      exact ends_onStakes (ends_stakesCall sound (signed who isWho) allowed isBody)
    next => exact .stakes state.stakes ⟨.native _, sound.pool⟩
  cases call with
  | setSequencerCommission new =>
      simp only [chainCall, setSequencerCommission, writeRounds, ends_bind, ends_ensureRoot,
        ends_read, ends_ensure, ends_write]
      exact ⟨fun _ => ⟨fun _ => .commission new, fun _ => stops_error _⟩, fun _ => stops_error _⟩
  | setBlocksPerRound new =>
      simp only [chainCall, setBlocksPerRound, writeRounds, totalSelected, ends_bind,
        ends_ensureRoot, ends_read, ends_ensure]
      refine ⟨fun _ => ⟨fun atLeast => ⟨fun _ => ?_, fun _ => stops_error _⟩,
        fun _ => stops_error _⟩, fun _ => stops_error _⟩
      refine ends_u32Result _ _ (fun total => ?_) fun _ _ => .inr rfl
      simp only [ends_write]
      exact ⟨fun _ => .length new atLeast, fun _ => stops_error _⟩
  | notifyInactiveSequencer sequencer =>
      simp only [chainCall, notifyInactiveSequencer, totalSelected, ends_bind, ends_read,
        ends_ensure, ends_ensureSigned]
      refine ⟨fun _ => ⟨fun who _ => ?_, fun _ => stops_error _⟩, fun _ => stops_error _⟩
      refine ends_u32Result _ _ (fun total => ?_) fun _ _ => .inr rfl
      refine ends_u32Result _ _ (fun twice => ?_) fun _ _ => .inr rfl
      simp only [ends_discardError, onStakes, ends_zoom]
      refine ⟨fun _ => ⟨fun _ => ⟨fun _ => ?_, fun _ => stops_error _⟩, fun _ => stops_error _⟩,
        fun _ => stops_error _⟩
      refine (ends_goOfflineInner sound sequencer).mono
        (fun _ after settles => .stakes after settles) ?_
      rintro _ _ ⟨⟨reason, rfl⟩, rfl⟩
      refine ⟨fun _ _ => .stakes state.stakes ⟨.native _, sound.pool⟩, fun site isPanic => ?_⟩
      cases isPanic
  | enableMarkingOffline value =>
      simp only [chainCall, writeRounds, ends_bind, ends_ensureRoot, ends_write]
      exact ⟨fun _ => .marking value, fun _ => stops_error _⟩
  | forceJoinCandidates account candidateCount =>
      simp only [chainCall, ends_bind, ends_ensureRoot]
      refine ⟨fun _ => ends_onStakes ?_, fun _ => stops_error _⟩
      exact (ends_joinCandidatesInner sound account candidateCount).mono
        (fun _ _ settles => settles) fun _ _ error _ => .inl error
  | setGroupMetric groupSize groupNumber =>
      simp only [chainCall, ends_bind, ends_ensureRoot]
      exact ⟨fun _ => (ends_onGroups _).mono (fun _ _ update => update)
        fun fault _ _ => stops_grouping rfl fault, fun _ => stops_error _⟩
  | benchmarkTriggerGroup candidates startingBlock roundIndex =>
      simp only [chainCall, ends_bind, ends_ensureRoot, ends_read, ends_discardError]
      exact ⟨fun _ => (ends_onGroups _).mono (fun _ _ update => update)
        fun _ _ update => ⟨fun _ _ => update, fun _ _ => stops_grouping rfl _⟩,
        fun _ => stops_error _⟩
  | registerProcessor ipAddress =>
      simp only [chainCall, ends_bind, ends_ensureSigned]
      exact ⟨fun _ _ => (ends_onGroups _).mono (fun _ _ update => update)
        fun fault _ _ => stops_grouping rfl fault, fun _ => stops_error _⟩
  | chargeRewardAccount | joinCandidates | scheduleLeaveCandidates | executeLeaveCandidates
  | cancelLeaveCandidates | goOffline | goOnline | candidateBondMore | scheduleCandidateBondLess
  | executeCandidateBondLess | cancelCandidateBondLess | delegate | scheduleRevokeDelegation
  | delegatorBondMore | scheduleDelegatorBondLess | executeDelegationRequest
  | cancelDelegationRequest | hotfixRemoveDelegationRequestsExitedCandidates =>
      exact absurd trivial isOnStakes

theorem update_applyExtrinsic (sound : Sound config state.stakes) (origin : Origin AccountId)
    (call : Call AccountId) (signed : ∀ who, origin = .signed who → signs who)
    (allowed : Withdraws may state.rounds.round state.stakes call) :
    Update config may signs state (applyExtrinsic config state origin call) := by
  have ends : (chainCall config origin call).Ends state
      (fun _ after => Update config may signs state after) fun _ _ => True :=
    (ends_chainCall sound origin call signed allowed).mono (fun _ _ => id) fun _ _ _ => trivial
  rcases ends.transactional with update | ⟨same, _⟩
  · exact update
  · rw [applyExtrinsic, dispatch, same]
    exact .stakes state.stakes ⟨.native _, sound.pool⟩

end Dispatch

end Popsicle
