import Popsicle.Withdrawals
import Popsicle.Snapshots

/-!
# Unbonding delays

Stake is taken out in two steps: it is scheduled, and it is executed when it is due.
A `Term` names what is pending, and `Timely` says that a step can only add terms that
are due the configured number of rounds later.
-/

namespace Popsicle

open Foundation Exec Keyed

variable {AccountId Native : Type} [LinearOrder AccountId] {config : Config AccountId Native}

/-! ## Pending requests -/

section Requests

variable {may : Withdrawal AccountId → Prop} {signs : AccountId → Prop}
  {before after : Stakes AccountId Native} {candidate : AccountId}

theorem removeRequest_sublist (requests : List (ScheduledRequest AccountId))
    (delegator : AccountId) : (removeRequest requests delegator).Sublist requests :=
  List.eraseP_sublist

theorem forgetRequest_sublist (stakes : Stakes AccountId Native)
    (sequencer delegator other : AccountId) :
    (requestsOf (forgetRequest stakes sequencer delegator) other).Sublist
      (stakes.requests other) := by
  unfold forgetRequest
  split
  next =>
    rw [requestsOf_insert]
    split
    next equal =>
      rw [equal]
      exact removeRequest_sublist _ _
    next => exact .refl _
  next => exact .refl _

theorem Returns.requests_sublist {bonds : List (Bond AccountId)}
    (returns : Returns config candidate bonds before after) (other : AccountId) :
    (after.requests other).Sublist (before.requests other) := by
  induction returns with
  | done => exact .refl _
  | skip _ _ _ ih => exact ih
  | give _ _ _ _ ih => exact ih.trans (forgetRequest_sublist _ _ _ _)

theorem Kicks.requests_sublist {kicked : Option (Bond AccountId)}
    (kicks : Kicks config candidate before kicked after) (other : AccountId) :
    (after.requests other).Sublist (before.requests other) := by
  cases kicked with
  | none =>
      rw [show after = before from kicks]
  | some bond =>
      obtain ⟨state, _, _, rfl⟩ := kicks
      exact forgetRequest_sublist _ _ _ _

theorem Effect.requests (effect : Effect config may signs before after) :
    (∀ sequencer, (after.requests sequencer).Sublist (before.requests sequencer)) ∨
    ∃ sequencer request, may .schedules ∧
      findRequest (before.requests sequencer) request.delegator = none ∧
      (booked before.delegatorState request.delegator sequencer).isSome = true ∧
      ∀ other, after.requests other =
        if other = sequencer then before.requests sequencer ++ [request]
        else before.requests other := by
  cases effect with
  | native | moves | joins | amends | bondsMore | bondsLess | increases =>
      exact .inl fun _ => .refl _
  | clears scheduled same => exact .inl fun sequencer => (same sequencer).symm ▸ .refl _
  | exits candidate info top bottom returned native _ _ _ _ returns =>
      refine .inl fun sequencer => ?_
      have shrunk := returns.requests_sublist sequencer
      simp only [Stakes.requests, StorageMap.get_remove] at shrunk ⊢
      split
      next => exact List.nil_sublist _
      next => exact shrunk
  | delegates delegator candidate amount state info info' top bottom top' bottom' kicked mid less
      pool _ _ _ _ _ _ _ _ kicks =>
      exact .inl kicks.requests_sublist
  | revokes delegator candidate =>
      exact .inl fun sequencer => forgetRequest_sublist before candidate delegator sequencer
  | decreases delegator candidate =>
      refine .inl fun sequencer => ?_
      change (requestsOf (before.delegationScheduledRequests.insert _ _) _).Sublist _
      rw [requestsOf_insert]
      split
      next equal =>
        rw [equal]
        exact removeRequest_sublist _ _
      next => exact .refl _
  | cancels delegator candidate =>
      refine .inl fun sequencer => ?_
      change (requestsOf (before.delegationScheduledRequests.insert _ _) _).Sublist _
      rw [requestsOf_insert]
      split
      next equal =>
        rw [equal]
        exact removeRequest_sublist _ _
      next => exact .refl _
  | schedules delegator candidate bonded state request stored sender absent recorded fits allowed =>
      subst sender
      refine .inr ⟨candidate, request, allowed, absent, ?_, fun other => ?_⟩
      · rw [booked_of_stored stored, recorded]
        rfl
      · exact requestsOf_insert before candidate _ other

end Requests

/-! ## Terms -/

/-- What can be pending: a request of a delegator towards a candidate, or the exit or a
decrease of the self bond of a candidate. -/
inductive Term (AccountId : Type) where
  | revoke (delegator candidate : AccountId)
  | decrease (delegator candidate : AccountId)
  | leave (candidate : AccountId)
  | bondLess (candidate : AccountId)

/-- What a request of a delegator towards a candidate is about. -/
def ScheduledRequest.term (candidate : AccountId) (request : ScheduledRequest AccountId) :
    Term AccountId :=
  match request.action with
  | .revoke _ => .revoke request.delegator candidate
  | .decrease _ => .decrease request.delegator candidate

/-- A term is pending, and due from a round on. -/
def Pending (stakes : Stakes AccountId Native) : Term AccountId → Nat → Prop
  | .revoke delegator candidate, due => ∃ request ∈ stakes.requests candidate,
      request.term candidate = .revoke delegator candidate ∧ request.whenExecutable = due
  | .decrease delegator candidate, due => ∃ request ∈ stakes.requests candidate,
      request.term candidate = .decrease delegator candidate ∧ request.whenExecutable = due
  | .leave candidate, due => ∃ info, stakes.candidateInfo.get candidate = some info ∧
      info.status = .leaving due
  | .bondLess candidate, due => ∃ info request, stakes.candidateInfo.get candidate = some info ∧
      info.request = some request ∧ request.whenExecutable = due

/-- How many rounds a term is meant to be pending at least. -/
def Term.delay (config : Config AccountId Native) : Term AccountId → Nat
  | .revoke _ _ => config.revokeDelegationDelay
  | .decrease _ _ => config.delegationBondLessDelay
  | .leave _ => config.leaveCandidatesDelay
  | .bondLess _ => config.candidateBondLessDelay

/-- The round that is stored for a term that is scheduled in the given one. -/
def Term.due (config : Config AccountId Native) (current : Nat) : Term AccountId → Nat
  | .revoke _ _ | .decrease _ _ => saturatingAdd current config.revokeDelegationDelay
  | .leave _ => (current + config.leaveCandidatesDelay) % (u32Max + 1)
  | .bondLess _ => (current + config.candidateBondLessDelay) % (u32Max + 1)

section Terms

variable {may : Withdrawal AccountId → Prop} {signs : AccountId → Prop}
  {before after : Stakes AccountId Native}

/-- A stored candidate has no terms but those it had before. -/
def SameOrNoTerms (before : Stakes AccountId Native) (candidate : AccountId)
    (info : CandidateMetadata) : Prop :=
  ((∃ due, info.status = .leaving due) ∨ info.request ≠ none) →
    ∃ old, before.candidateInfo.get candidate = some old ∧
      (∀ due, info.status = .leaving due → old.status = .leaving due) ∧
      ∀ request, info.request = some request → old.request = some request

omit [LinearOrder AccountId] in
theorem sameOrNoTerms_of_stored {candidate : AccountId} {old info : CandidateMetadata}
    (stored : before.candidateInfo.get candidate = some old)
    (status : ∀ due, info.status = .leaving due → old.status = .leaving due)
    (request : ∀ request, info.request = some request → old.request = some request) :
    SameOrNoTerms before candidate info :=
  fun _ => ⟨old, stored, status, request⟩

/-- Unless it schedules something, a step gives no candidate new terms. -/
theorem Effect.sameOrNoTerms (effect : Effect config may signs before after)
    (notScheduled : ¬may .schedules) :
    ∀ candidate info, after.candidateInfo.get candidate = some info →
      SameOrNoTerms before candidate info := by
  have same : ∀ candidate info, before.candidateInfo.get candidate = some info →
      SameOrNoTerms before candidate info := fun candidate info stored =>
    sameOrNoTerms_of_stored stored (fun _ => id) fun _ => id
  have sameTerms : ∀ {candidate info info'}, before.candidateInfo.get candidate = some info →
      SameTerms info info' → SameOrNoTerms before candidate info' := by
    rintro candidate info info' stored ⟨status, _, request⟩
    refine sameOrNoTerms_of_stored stored (fun due => ?_) fun new => ?_
    · rw [status]
      exact id
    · rw [request]
      exact id
  cases effect with
  | native | moves | clears | schedules | cancels => exact same
  | joins candidate native pool fresh =>
      refine StorageMap.forall_insert same ?_
      rintro (⟨_, leaving⟩ | requested)
      · cases leaving
      · exact absurd rfl requested
  | amends candidate info status request pool stored terms timed =>
      refine StorageMap.forall_insert same ?_
      obtain ⟨leaves, requests⟩ := timed.resolve_left notScheduled
      exact sameOrNoTerms_of_stored stored leaves requests
  | bondsMore candidate info more pool stored =>
      refine StorageMap.forall_insert same ?_
      exact sameOrNoTerms_of_stored stored (fun _ => id) fun _ => id
  | bondsLess candidate info request pool stored =>
      refine StorageMap.forall_insert same ?_
      exact sameOrNoTerms_of_stored stored (fun _ => id) nofun
  | exits => exact StorageMap.forall_remove same _
  | delegates _ _ _ _ _ _ _ _ _ _ _ _ _ _ stored _ _ _ _ _ _ _ _ _ terms
  | revokes _ _ _ _ _ _ _ _ _ _ _ _ _ _ _ stored _ _ _ terms
  | decreases _ _ _ _ _ _ _ _ _ _ _ _ _ _ _ _ _ _ _ stored _ _ _ terms
  | increases _ _ _ _ _ _ _ _ _ _ _ _ _ _ _ _ stored _ _ _ terms =>
      refine StorageMap.forall_insert same ?_
      exact sameTerms stored terms

/-- Unless it schedules something, a step leaves nothing pending that was not before. -/
theorem Effect.pending (effect : Effect config may signs before after)
    (notScheduled : ¬may .schedules) {term : Term AccountId} {due : Nat}
    (pending : Pending after term due) : Pending before term due := by
  have requests : ∀ sequencer, (after.requests sequencer).Sublist (before.requests sequencer) :=
    effect.requests.resolve_right fun ⟨_, _, allowed, _⟩ => notScheduled allowed
  cases term with
  | revoke delegator candidate | decrease delegator candidate =>
      obtain ⟨request, member, terms⟩ := pending
      exact ⟨request, (requests candidate).subset member, terms⟩
  | leave candidate =>
      obtain ⟨info, stored, leaving⟩ := pending
      obtain ⟨old, isOld, status, _⟩ :=
        effect.sameOrNoTerms notScheduled candidate info stored (.inl ⟨due, leaving⟩)
      exact ⟨old, isOld, status due leaving⟩
  | bondLess candidate =>
      obtain ⟨info, request, stored, requested, isDue⟩ := pending
      obtain ⟨old, isOld, _, requests⟩ :=
        effect.sameOrNoTerms notScheduled candidate info stored (.inr (by simp [requested]))
      exact ⟨old, request, isOld, requests request requested, isDue⟩

end Terms

/-! ## Scheduling -/

/-- A call that schedules a term. -/
inductive Schedules : Origin AccountId → Call AccountId → Term AccountId → Prop where
  | revoke (delegator candidate : AccountId) :
      Schedules (.signed delegator) (.scheduleRevokeDelegation candidate)
        (.revoke delegator candidate)
  | decrease (delegator candidate : AccountId) (less : Nat) :
      Schedules (.signed delegator) (.scheduleDelegatorBondLess candidate less)
        (.decrease delegator candidate)
  | leave (candidate : AccountId) (candidateCount : Nat) :
      Schedules (.signed candidate) (.scheduleLeaveCandidates candidateCount) (.leave candidate)
  | bondLess (candidate : AccountId) (less : Nat) :
      Schedules (.signed candidate) (.scheduleCandidateBondLess less) (.bondLess candidate)

/-- A term that was not pending has been scheduled, and no other. -/
structure Scheduled (config : Config AccountId Native) (current : Nat) (term : Term AccountId)
    (before after : Stakes AccountId Native) : Prop where
  fresh : ∀ due, ¬Pending before term due
  pending : ∀ other due, Pending after other due ↔
    Pending before other due ∨ other = term ∧ due = term.due config current

section Scheduling

variable {stakes : Stakes AccountId Native} {current : Nat}

omit [LinearOrder AccountId] in
theorem term_cases (request : ScheduledRequest AccountId) (candidate : AccountId) :
    request.term candidate = .revoke request.delegator candidate ∨
      request.term candidate = .decrease request.delegator candidate := by
  unfold ScheduledRequest.term
  split
  · exact .inl rfl
  · exact .inr rfl

omit [LinearOrder AccountId] in
theorem term_eq_revoke {candidate delegator sequencer : AccountId}
    {request : ScheduledRequest AccountId}
    (isTerm : request.term candidate = .revoke delegator sequencer) :
    request.delegator = delegator ∧ candidate = sequencer := by
  rcases term_cases request candidate with isKind | isKind
  · exact Term.revoke.inj (isKind.symm.trans isTerm)
  · cases isKind.symm.trans isTerm

omit [LinearOrder AccountId] in
theorem term_eq_decrease {candidate delegator sequencer : AccountId}
    {request : ScheduledRequest AccountId}
    (isTerm : request.term candidate = .decrease delegator sequencer) :
    request.delegator = delegator ∧ candidate = sequencer := by
  rcases term_cases request candidate with isKind | isKind
  · cases isKind.symm.trans isTerm
  · exact Term.decrease.inj (isKind.symm.trans isTerm)

theorem scheduled_request {candidate : AccountId} (request : ScheduledRequest AccountId)
    (absent : findRequest (stakes.requests candidate) request.delegator = none)
    (isDue : request.whenExecutable = (request.term candidate).due config current)
    (delegatorState : StorageMap AccountId (Delegator AccountId)) :
    Scheduled config current (request.term candidate) stakes { stakes with
      delegatorState
      delegationScheduledRequests := stakes.delegationScheduledRequests.insert candidate
        (stakes.requests candidate ++ [request]) } := by
  have others : ∀ other ∈ stakes.requests candidate, other.delegator ≠ request.delegator :=
    lookup_eq_none.mp absent
  have appended : ∀ sequencer, Stakes.requests { stakes with
      delegatorState
      delegationScheduledRequests := stakes.delegationScheduledRequests.insert candidate
        (stakes.requests candidate ++ [request]) } sequencer =
      if sequencer = candidate then stakes.requests candidate ++ [request]
      else stakes.requests sequencer := requestsOf_insert stakes candidate _
  constructor
  · intro due pending
    rcases term_cases request candidate with isTerm | isTerm
    · rw [isTerm] at pending
      obtain ⟨other, member, same, _⟩ := pending
      exact others other member (term_eq_revoke same).1
    · rw [isTerm] at pending
      obtain ⟨other, member, same, _⟩ := pending
      exact others other member (term_eq_decrease same).1
  · intro other due
    rw [← isDue]
    cases other with
    | revoke delegator sequencer =>
        simp only [Pending, appended]
        by_cases equal : sequencer = candidate
        · subst equal
          simp [or_and_right, exists_or, eq_comm]
        · have different : ¬.revoke delegator sequencer = request.term candidate := fun same =>
            equal (term_eq_revoke same.symm).2.symm
          simp [equal, different]
    | decrease delegator sequencer =>
        simp only [Pending, appended]
        by_cases equal : sequencer = candidate
        · subst equal
          simp [or_and_right, exists_or, eq_comm]
        · have different : ¬.decrease delegator sequencer = request.term candidate := fun same =>
            equal (term_eq_decrease same.symm).2.symm
          simp [equal, different]
    | leave | bondLess =>
        refine ⟨.inl, fun either => either.resolve_right ?_⟩
        rintro ⟨isTerm, _⟩
        rcases term_cases request candidate with isKind | isKind
        · cases isTerm.trans isKind
        · cases isTerm.trans isKind

/-- The exit of a candidate that is not leaving has been scheduled. -/
theorem scheduled_leave {candidate : AccountId} {info : CandidateMetadata}
    (stored : stakes.candidateInfo.get candidate = some info) (stays : info.isLeaving = false)
    (pool : BoundedOrderedSet (Bond AccountId)) :
    Scheduled config current (.leave candidate) stakes { stakes with
      candidateInfo := stakes.candidateInfo.insert candidate
        { info with status := .leaving ((Term.leave candidate).due config current) }
      candidatePool := pool } := by
  have notPending : ∀ due, ¬Pending stakes (.leave candidate) due := by
    rintro due ⟨old, isOld, leaving⟩
    rw [stored] at isOld
    cases isOld
    simp [CandidateMetadata.isLeaving, leaving] at stays
  refine ⟨notPending, fun other due => ?_⟩
  cases other with
  | revoke | decrease => simp [Pending, Stakes.requests]
  | leave account =>
      by_cases equal : account = candidate
      · subst equal
        simp only [notPending, false_or, true_and]
        simp [Pending, eq_comm]
      · simp [Pending, equal]
  | bondLess account =>
      by_cases equal : account = candidate
      · subst equal
        simp [Pending, stored]
      · simp [Pending, equal]

/-- A decrease of the self bond has been scheduled where there was none. -/
theorem scheduled_bondLess {candidate : AccountId} {info : CandidateMetadata}
    (stored : stakes.candidateInfo.get candidate = some info) (none : info.request = none)
    (less : Nat) :
    Scheduled config current (.bondLess candidate) stakes { stakes with
      candidateInfo := stakes.candidateInfo.insert candidate { info with
        request := some { amount := less
                          whenExecutable := (Term.bondLess candidate).due config current } } } := by
  have notPending : ∀ due, ¬Pending stakes (.bondLess candidate) due := by
    rintro due ⟨old, request, isOld, requested, _⟩
    rw [stored] at isOld
    cases isOld
    rw [none] at requested
    cases requested
  refine ⟨notPending, fun other due => ?_⟩
  cases other with
  | revoke | decrease => simp [Pending, Stakes.requests]
  | leave account =>
      by_cases equal : account = candidate
      · subst equal
        simp [Pending, stored]
      · simp [Pending, equal]
  | bondLess account =>
      by_cases equal : account = candidate
      · subst equal
        simp only [notPending, false_or, true_and]
        simp [Pending, eq_comm]
      · simp [Pending, equal]

theorem ends_schedules {origin : Origin AccountId} {call : Call AccountId} {term : Term AccountId}
    (schedules : Schedules origin call term) {state : State AccountId Native} :
    (dispatch config origin call).Ends state
      (fun _ after => Scheduled config state.rounds.round.current term state.stakes after.stakes)
      (fun _ _ => True) := by
  cases schedules with
  | revoke delegator candidate =>
      simp only [dispatch, chainCall, stakesCall, onStakes, delegationScheduleRevoke, readDelegator,
        pushRequest, storeRequests, storeDelegator, ends_transactional, ends_bind,
        ends_ensureSigned, ends_read, ends_zoom, ends_require, ends_ensure, ends_write, ends_pure]
      refine ⟨?_, fun _ => trivial⟩
      rintro _ ⟨⟩
      refine ⟨fun record stored => ⟨fun absent => ⟨fun bonded recorded => ⟨fun _ => ?_, ?_⟩, ?_⟩,
        ?_⟩, ?_⟩
      · exact scheduled_request {
          delegator, action := .revoke bonded
          whenExecutable := saturatingAdd state.rounds.round.current config.revokeDelegationDelay }
          absent rfl _
      all_goals exact fun _ => trivial
  | decrease delegator candidate less =>
      simp only [dispatch, chainCall, stakesCall, onStakes, delegationScheduleBondDecrease,
        readDelegator, pushRequest, storeRequests, storeDelegator, ends_transactional, ends_bind,
        ends_ensureSigned, ends_read, ends_zoom, ends_require, ends_ensure, ends_write, ends_pure]
      refine ⟨?_, fun _ => trivial⟩
      rintro _ ⟨⟩
      refine ⟨fun record stored => ⟨fun absent => ⟨fun bonded recorded => ⟨fun _ => ⟨fun _ =>
        ⟨fun _ => ⟨fun _ => ?_, ?_⟩, ?_⟩, ?_⟩, ?_⟩, ?_⟩, ?_⟩, ?_⟩
      · exact scheduled_request {
          delegator, action := .decrease less
          whenExecutable := saturatingAdd state.rounds.round.current config.revokeDelegationDelay }
          absent rfl _
      all_goals exact fun _ => trivial
  | leave candidate candidateCount =>
      simp only [dispatch, chainCall, stakesCall, onStakes, scheduleLeaveCandidates, readCandidate,
        CandidateMetadata.scheduleLeave, storePool, storeCandidate, ends_transactional, ends_bind,
        ends_ensureSigned, ends_read, ends_zoom, ends_require, ends_ensure, ends_u32Result_nat,
        ends_ite, ends_write, ends_pure]
      refine ⟨?_, fun _ => trivial⟩
      rintro _ ⟨⟩
      refine ⟨fun info stored => ⟨fun stays => ⟨fun _ => ⟨fun _ => ⟨fun _ => ?_, fun _ => ?_⟩, ?_⟩,
        ?_⟩, ?_⟩, ?_⟩
      · exact scheduled_leave stored stays _
      · exact scheduled_leave stored stays state.stakes.candidatePool
      all_goals exact fun _ => trivial
  | bondLess candidate less =>
      simp only [dispatch, chainCall, stakesCall, onStakes, scheduleCandidateBondLess,
        readCandidate, CandidateMetadata.scheduleBondLess, storeCandidate, ends_transactional,
        ends_bind, ends_ensureSigned, ends_read, ends_zoom, ends_require, ends_ensure,
        ends_u32Result_nat, ends_write, ends_pure]
      refine ⟨?_, fun _ => trivial⟩
      rintro _ ⟨⟩
      refine ⟨fun info stored => ⟨fun none => ⟨fun _ => ⟨fun _ => ?_, ?_⟩, ?_⟩, ?_⟩, ?_⟩
      · exact scheduled_bondLess stored none less
      all_goals exact fun _ => trivial

end Scheduling

/-! ## Execution -/

/-- A call that executes a term that is pending. -/
inductive Executes (stakes : Stakes AccountId Native) : Call AccountId → Term AccountId → Prop where
  | request (delegator candidate : AccountId) (request : ScheduledRequest AccountId)
      (found : findRequest (stakes.requests candidate) delegator = some request) :
      Executes stakes (.executeDelegationRequest delegator candidate) (request.term candidate)
  | leave (candidate : AccountId) (candidateDelegationCount : Nat) :
      Executes stakes (.executeLeaveCandidates candidate candidateDelegationCount)
        (.leave candidate)
  | bondLess (candidate : AccountId) :
      Executes stakes (.executeCandidateBondLess candidate) (.bondLess candidate)

section Execution

variable {state : State AccountId Native} {origin : Origin AccountId} {call : Call AccountId}
  {term : Term AccountId}

omit [LinearOrder AccountId] in
theorem pending_of_request {stakes : Stakes AccountId Native} {candidate : AccountId}
    {request : ScheduledRequest AccountId} (member : request ∈ stakes.requests candidate) :
    Pending stakes (request.term candidate) request.whenExecutable := by
  rcases term_cases request candidate with isTerm | isTerm
  · rw [isTerm]
    exact ⟨request, member, isTerm, rfl⟩
  · rw [isTerm]
    exact ⟨request, member, isTerm, rfl⟩

theorem ends_executes (executes : Executes state.stakes call term) :
    (dispatch config origin call).Ends state
      (fun _ _ => ∃ due, Pending state.stakes term due ∧ due ≤ state.rounds.round.current)
      (fun _ _ => True) := by
  cases executes with
  | request delegator candidate request found =>
      simp only [dispatch, chainCall, stakesCall, onStakes, delegationExecuteScheduledRequest,
        readDelegator, ends_transactional, ends_bind, ends_ensureSigned, ends_read, ends_zoom,
        ends_require, ends_ensure, found, Option.some.injEq]
      refine ⟨fun who _ => ⟨fun record _ => ⟨?_, fun _ => trivial⟩, fun _ => trivial⟩,
        fun _ => trivial⟩
      rintro _ rfl
      refine ⟨fun isDue => ?_, fun _ => trivial⟩
      have pending := pending_of_request (mem_of_lookup found)
      exact .of_forall (fun _ _ => ⟨_, pending, isDue⟩) fun _ _ => trivial
  | leave candidate candidateDelegationCount =>
      simp only [dispatch, chainCall, stakesCall, onStakes, executeLeaveCandidates, readCandidate,
        ends_transactional, ends_bind, ends_ensureSigned, ends_read, ends_zoom, ends_require,
        ends_ensure]
      refine ⟨fun who _ => ⟨fun _ _ => ⟨fun _ => ?_, fun _ => trivial⟩, fun _ => trivial⟩,
        fun _ => trivial⟩
      rw [executeLeaveCandidatesInner, ends_bind, readCandidate, ends_bind, ends_read,
        ends_require]
      refine ⟨fun info stored => ?_, fun _ => trivial⟩
      rw [ends_bind, CandidateMetadata.canLeave]
      cases status : info.status with
      | active | idle => trivial
      | leaving due =>
          rw [ends_ensure]
          refine ⟨fun isDue => ?_, fun _ => trivial⟩
          have pending : Pending state.stakes (.leave candidate) due := ⟨info, stored, status⟩
          exact .of_forall (fun _ _ => ⟨due, pending, isDue⟩) fun _ _ => trivial
  | bondLess candidate =>
      simp only [dispatch, chainCall, stakesCall, onStakes, executeCandidateBondLessInner,
        readCandidate, CandidateMetadata.executeBondLess, ends_transactional, ends_bind,
        ends_ensureSigned, ends_read, ends_zoom, ends_require, ends_ensure, ends_pure]
      refine ⟨fun who _ => ⟨fun info stored => ⟨fun request requested => ⟨fun isDue => ?_,
        fun _ => trivial⟩, fun _ => trivial⟩, fun _ => trivial⟩, fun _ => trivial⟩
      have pending : Pending state.stakes (.bondLess candidate) request.whenExecutable :=
        ⟨info, request, stored, requested, rfl⟩
      exact .of_forall (fun _ _ => .of_forall (fun _ _ => ⟨_, pending, isDue⟩) fun _ _ => trivial)
        fun _ _ => trivial

end Execution

/-! ## Steps -/

/-- An action that schedules a term. -/
def Action.Schedules (action : Action AccountId Native) (term : Term AccountId) : Prop :=
  ∃ origin call, action = .extrinsic origin call ∧ Popsicle.Schedules origin call term

section Steps

variable {spec : ChainSpec AccountId Native} {before after state : State AccountId Native}
  {action : Action AccountId Native}

theorem dispatch_error {origin : Origin AccountId} {call : Call AccountId} {fault : Fault}
    (failed : dispatch config origin call before = (.error fault, after)) : after = before := by
  unfold dispatch transactional at failed
  split at failed
  · cases failed
  · cases failed
    rfl

/-- What is pending after a step was pending before, or the step has scheduled it. -/
theorem pending_of_step (sound : Sound config before.stakes)
    (taken : step config before action = some after) {term : Term AccountId} {due : Nat}
    (pending : Pending after.stakes term due) :
    Pending before.stakes term due ∨
      action.Schedules term ∧ due = term.due config before.rounds.round.current := by
  have settled : Allows (fun _ withdrawal => withdrawal ≠ .schedules) before action →
      Pending before.stakes term due := by
    intro allowed
    have settles : Settles config (fun withdrawal => withdrawal ≠ .schedules) (fun _ => True)
        before.stakes after.stakes :=
      (transition_of_step sound (fun _ _ => trivial) allowed taken).settles sound
    exact settles.1.pending (fun scheduled => scheduled rfl) pending
  have scheduled : ∀ {origin call other}, action = .extrinsic origin call →
      Schedules origin call other → Pending before.stakes term due ∨
        action.Schedules term ∧ due = term.due config before.rounds.round.current := by
    rintro origin call other rfl schedules
    simp only [step] at taken
    split at taken
    next => cases taken
    next =>
      cases taken
      rw [applyExtrinsic] at pending
      cases run : dispatch config origin call before with
      | mk result last =>
          rw [run] at pending
          cases result with
          | error fault =>
              rw [dispatch_error run] at pending
              exact .inl pending
          | ok value =>
              have isScheduled := (ends_schedules schedules).of_ok run
              refine ((isScheduled.pending term due).mp pending).imp_right ?_
              rintro ⟨rfl, isDue⟩
              exact ⟨⟨origin, call, rfl, schedules⟩, isDue⟩
  have unsigned : ∀ {origin : Origin AccountId} {call : Call AccountId},
      action = .extrinsic origin call → applyExtrinsic config before origin call = before →
      Pending before.stakes term due := by
    rintro origin call rfl unchanged
    simp only [step, unchanged] at taken
    split at taken
    next => cases taken
    next =>
      cases taken
      exact pending
  cases action with
  | nextBlock | awardPoints | moveBtc | changeNative => exact .inl (settled trivial)
  | extrinsic origin call =>
      cases call with
      | scheduleRevokeDelegation candidate =>
          cases origin with
          | signed who => exact scheduled rfl (.revoke who candidate)
          | root | none => exact .inl (unsigned rfl rfl)
      | scheduleDelegatorBondLess candidate less =>
          cases origin with
          | signed who => exact scheduled rfl (.decrease who candidate less)
          | root | none => exact .inl (unsigned rfl rfl)
      | scheduleLeaveCandidates candidateCount =>
          cases origin with
          | signed who => exact scheduled rfl (.leave who candidateCount)
          | root | none => exact .inl (unsigned rfl rfl)
      | scheduleCandidateBondLess less =>
          cases origin with
          | signed who => exact scheduled rfl (.bondLess who less)
          | root | none => exact .inl (unsigned rfl rfl)
      | executeLeaveCandidates | executeDelegationRequest =>
        refine .inl (settled fun _ => ?_)
        rintro ⟨⟩
      | _ => exact .inl (settled trivial)

theorem Reached.current_le {admits : State AccountId Native → Action AccountId Native → Prop}
    (reached : Reached config spec admits before)
    (taken : step config before action = some after) :
    before.rounds.round.current ≤ after.rounds.round.current := by
  have transition := transition_of_step reached.sound (fun _ _ => trivial)
    (allows_any before action) taken
  cases transition with
  | update update => cases update <;> exact le_refl _
  | awards => exact le_refl _
  | block parentHash block =>
      have opened : before.rounds.round.current ≤ before.openedRound.current := by
        unfold State.openedRound
        split
        · exact Nat.le_succ _
        · exact le_refl _
      cases block with
      | plain opens =>
          rw [opens.reads.1]
          exact opened
      | snapshots rounds opens _ selection =>
          obtain ⟨snapshots, selected, rfl⟩ := selection.frame
          dsimp only
          rw [opens.reads.1]
          exact opened

end Steps

/-! ## The delays -/

/-- A term that is scheduled in the given round is not due too early. -/
def Delayed (config : Config AccountId Native) (current : Nat) : Term AccountId → Prop
  | .revoke _ _ => current + config.revokeDelegationDelay ≤ u32Max
  | .decrease _ _ => config.delegationBondLessDelay ≤ config.revokeDelegationDelay ∧
      current + config.delegationBondLessDelay ≤ u32Max
  | .leave _ => current + config.leaveCandidatesDelay ≤ u32Max
  | .bondLess _ => current + config.candidateBondLessDelay ≤ u32Max

omit [LinearOrder AccountId] in
theorem delayed_iff (config : Config AccountId Native) (current : Nat) (term : Term AccountId) :
    current + term.delay config ≤ term.due config current ↔ Delayed config current term := by
  cases term with
  | revoke => simp [Term.delay, Term.due, Delayed, saturatingAdd]
  | decrease => simp [Term.delay, Term.due, Delayed, saturatingAdd]
  | leave =>
      simp only [Term.delay, Term.due, Delayed]
      exact ⟨fun atMost => Nat.le_of_lt_succ (atMost.trans_lt (Nat.mod_lt _ (Nat.succ_pos _))),
        fun fits => (Nat.mod_eq_of_lt (Nat.lt_succ_of_le fits)).ge⟩
  | bondLess =>
      simp only [Term.delay, Term.due, Delayed]
      exact ⟨fun atMost => Nat.le_of_lt_succ (atMost.trans_lt (Nat.mod_lt _ (Nat.succ_pos _))),
        fun fits => (Nat.mod_eq_of_lt (Nat.lt_succ_of_le fits)).ge⟩

/-- Whatever is scheduled of a term is not due too early. -/
def SchedulesDelayed (config : Config AccountId Native) (term : Term AccountId)
    (state : State AccountId Native) (action : Action AccountId Native) : Prop :=
  action.Schedules term → Delayed config state.rounds.round.current term

section Runs

variable {spec : ChainSpec AccountId Native} {before scheduled later : State AccountId Native}
  {origin : Origin AccountId} {call : Call AccountId} {term : Term AccountId}

/-- After a call that has scheduled a term, the term is pending as scheduled. -/
theorem pending_iff_of_schedules (schedules : Schedules origin call term)
    (succeeds : Succeeds config before origin call)
    (taken : step config before (.extrinsic origin call) = some scheduled) (due : Nat) :
    Pending scheduled.stakes term due ↔ due = term.due config before.rounds.round.current := by
  simp only [step] at taken
  split at taken
  next => cases taken
  next =>
    cases taken
    have run : dispatch config origin call before =
        (.ok (), applyExtrinsic config before origin call) := Prod.ext succeeds rfl
    have isScheduled := (ends_schedules schedules).of_ok run
    rw [isScheduled.pending]
    simp [isScheduled.fresh due]

/-- A term that has been scheduled is not due before its delay has passed if and only if
the condition holds.  Where everything that is scheduled of it meets the condition, it
is not executed earlier. -/
theorem delays_enforced (reachable : Reachable config spec before)
    (schedules : Schedules origin call term) (succeeds : Succeeds config before origin call)
    (taken : step config before (.extrinsic origin call) = some scheduled) :
    ((∀ due, Pending scheduled.stakes term due →
        before.rounds.round.current + term.delay config ≤ due) ↔
      Delayed config before.rounds.round.current term) ∧
    (Delayed config before.rounds.round.current term →
      ∀ later executor execution,
        Reaches (step config) (SchedulesDelayed config term) scheduled later →
        Executes later.stakes execution term → Succeeds config later executor execution →
        before.rounds.round.current + term.delay config ≤ later.rounds.round.current) := by
  have isPending := pending_iff_of_schedules schedules succeeds taken
  have first : (∀ due, Pending scheduled.stakes term due →
      before.rounds.round.current + term.delay config ≤ due) ↔
      Delayed config before.rounds.round.current term := by
    rw [← delayed_iff]
    simp [isPending]
  refine ⟨first, fun delayed later executor execution reaches executes succeeded => ?_⟩
  have start : Reachable config spec scheduled := reachable.next trivial taken
  have kept : ∀ state action after,
      (Reachable config spec state ∧ before.rounds.round.current ≤ state.rounds.round.current ∧
        ∀ due, Pending state.stakes term due →
          before.rounds.round.current + term.delay config ≤ due) →
      SchedulesDelayed config term state action → step config state action = some after →
      Reachable config spec after ∧ before.rounds.round.current ≤ after.rounds.round.current ∧
        ∀ due, Pending after.stakes term due →
          before.rounds.round.current + term.delay config ≤ due := by
    rintro state action after ⟨reached, later, waits⟩ admitted moved
    refine ⟨reached.next trivial moved, later.trans (reached.current_le moved), ?_⟩
    intro due pending
    rcases pending_of_step reached.sound moved pending with wasPending | ⟨schedules, rfl⟩
    · exact waits due wasPending
    · have atLeast := (delayed_iff config _ term).mpr (admitted schedules)
      omega
  obtain ⟨_, _, waits⟩ := reaches.invariant
    ⟨start, reachable.current_le taken, first.mpr delayed⟩ kept
  have run : dispatch config executor execution later =
      (.ok (), (dispatch config executor execution later).2) := Prod.ext succeeded rfl
  obtain ⟨due, pending, isDue⟩ := (ends_executes executes).of_ok run
  exact (waits due pending).trans isDue

end Runs

/-- What is seen of a decrease that is scheduled in the first block and executed in the
tenth: the rounds, whether both calls succeed, and the request. -/
def decreaseRun (config : Config Nat (Nat → Nat)) :
    Option (Nat × Bool × Option (Nat × DelegationAction) × Nat × Bool) :=
  (played config crowdedGenesis [.nextBlock 0]).bind fun before =>
    (step config before (.extrinsic (.signed 9) (.scheduleDelegatorBondLess 1 1))).bind
      fun scheduled => (run (step config) scheduled (List.replicate 9 (.nextBlock 0))).map
        fun later => (before.rounds.round.current,
          (dispatch config (.signed 9) (.scheduleDelegatorBondLess 1 1) before).1.isOk,
          (findRequest (later.stakes.requests 1) 9).map fun request =>
            (request.delegator, request.action),
          later.rounds.round.current,
          (dispatch config (.signed 4) (.executeDelegationRequest 9 1) later).1.isOk)

/-- A decrease that is scheduled in the first round and executed in the third. -/
theorem exists_decrease {config : Config Nat (Nat → Nat)}
    (shown : decreaseRun config = some (1, true, some (9, .decrease 1), 3, true)) :
    ∃ before scheduled later, Reachable config crowdedGenesis before ∧
      Succeeds config before (.signed 9) (.scheduleDelegatorBondLess 1 1) ∧
      step config before (.extrinsic (.signed 9) (.scheduleDelegatorBondLess 1 1)) =
        some scheduled ∧
      Reaches (step config) (SchedulesDelayed config (.decrease 9 1)) scheduled later ∧
      Executes later.stakes (.executeDelegationRequest 9 1) (.decrease 9 1) ∧
      Succeeds config later (.signed 4) (.executeDelegationRequest 9 1) ∧
      before.rounds.round.current = 1 ∧ later.rounds.round.current = 3 := by
  obtain ⟨before, isPlayed, shown⟩ := Option.bind_eq_some_iff.mp shown
  obtain ⟨scheduled, taken, shown⟩ := Option.bind_eq_some_iff.mp shown
  obtain ⟨later, continued, shown⟩ := Option.map_eq_some_iff.mp shown
  simp only [Prod.mk.injEq] at shown
  obtain ⟨first, isScheduled, isRequest, last, isExecuted⟩ := shown
  obtain ⟨request, found, isRequest⟩ := Option.map_eq_some_iff.mp isRequest
  obtain ⟨sender, action⟩ := Prod.mk.inj isRequest
  have isTerm : request.term 1 = .decrease 9 1 := by
    rw [ScheduledRequest.term, action, sender]
  have admitted : ∀ state, ∀ action ∈ List.replicate 9 (.nextBlock 0),
      SchedulesDelayed config (.decrease 9 1) state action := by
    rintro state action member ⟨_, _, isExtrinsic, _⟩
    rw [List.eq_of_mem_replicate member] at isExtrinsic
    cases isExtrinsic
  refine ⟨before, scheduled, later, Reached.of_played_any isPlayed, isOk_iff.mp isScheduled, taken,
    Reaches.start.append (admitted_of_forall admitted scheduled) continued, ?_,
    isOk_iff.mp isExecuted, first, last⟩
  rw [← isTerm]
  exact .request 9 1 request found

/-- The mock runtime with a longer delay for decreases than for revokes. -/
def slowDecreases : Config Nat (Nat → Nat) := { mockRuntime with delegationBondLessDelay := 3 }

/-- A decrease is executed before its own delay has passed, since it is scheduled with
the delay of a revoke. -/
theorem decrease_not_delayed :
    ∃ before scheduled later, Reachable slowDecreases crowdedGenesis before ∧
      Succeeds slowDecreases before (.signed 9) (.scheduleDelegatorBondLess 1 1) ∧
      step slowDecreases before (.extrinsic (.signed 9) (.scheduleDelegatorBondLess 1 1)) =
        some scheduled ∧
      Reaches (step slowDecreases) (fun _ _ => True) scheduled later ∧
      Executes later.stakes (.executeDelegationRequest 9 1) (.decrease 9 1) ∧
      Succeeds slowDecreases later (.signed 4) (.executeDelegationRequest 9 1) ∧
      later.rounds.round.current <
        before.rounds.round.current + slowDecreases.delegationBondLessDelay := by
  obtain ⟨before, scheduled, later, reachable, succeeds, taken, reaches, executes, executed, first,
    last⟩ := exists_decrease (show decreaseRun slowDecreases = _ by decide +kernel)
  refine ⟨before, scheduled, later, reachable, succeeds, taken,
    reaches.weaken fun _ _ _ => trivial, executes, executed, ?_⟩
  rw [first, last]
  decide

theorem delays_enforced_mock :
    ∃ before later, Reachable mockRuntime crowdedGenesis before ∧
      Succeeds mockRuntime later (.signed 4) (.executeDelegationRequest 9 1) ∧
      before.rounds.round.current + mockRuntime.delegationBondLessDelay ≤
        later.rounds.round.current := by
  obtain ⟨before, scheduled, later, reachable, succeeds, taken, reaches, executes, executed, first,
    last⟩ := exists_decrease (show decreaseRun mockRuntime = _ by decide +kernel)
  have delayed : Delayed mockRuntime before.rounds.round.current (.decrease 9 1) := by
    rw [first]
    exact ⟨by decide, by decide⟩
  have enforced := delays_enforced reachable (.decrease 9 1 1) succeeds taken
  exact ⟨before, later, reachable, executed, enforced.2 delayed later _ _ reaches executes executed⟩

end Popsicle
