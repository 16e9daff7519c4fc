import Popsicle.Effects

/-!
# Extrinsics of delegators

Each extrinsic that a delegator sends, or that executes a request of a delegator,
ends in one of the effects, or with an error.
-/

namespace Popsicle

open Foundation Exec Keyed

variable {AccountId Native : Type} [LinearOrder AccountId] {config : Config AccountId Native}
  {may : Withdrawal AccountId → Prop} {signs : AccountId → Prop} {stakes : Stakes AccountId Native}
  {candidate delegator : AccountId}

/-! ## Safe states -/

section Safe

variable {state : Delegator AccountId} {amount : Nat}

theorem Agrees.exists_candidate (agrees : Agrees config stakes)
    (recorded : booked stakes.delegatorState delegator candidate = some amount) :
    ∃ info, stakes.candidateInfo.get candidate = some info := by
  rw [← Option.ne_none_iff_exists']
  intro missing
  have absent := agrees.lists.absent candidate missing delegator
  rw [recorded] at absent
  cases absent

theorem Safe.kick_cannot_fail (safe : Safe config stakes) {info : CandidateMetadata}
    {top bottom : Delegations AccountId} {bond : Bond AccountId} {fault : Fault}
    (stored : stakes.candidateInfo.get candidate = some info)
    (storedTop : stakes.topDelegations.get candidate = some top)
    (storedBottom : stakes.bottomDelegations.get candidate = some bottom)
    (member : bond ∈ bottom.delegations) :
    ¬KickFails config candidate stakes bond fault := by
  have recorded := safe.agrees.booked_of_mem stored storedTop storedBottom
    (List.mem_append_right _ member)
  rintro (⟨missing, _⟩ | ⟨state, amount, storedDelegator, found, refused, _⟩)
  · rw [booked_of_none missing] at recorded
    cases recorded
  · exact refused (safe.refundable storedDelegator found)

end Safe

/-! ## Delegating -/

theorem ends_delegatorStateWith (sound : Sound config stakes) (amount hint : Nat) :
    (delegatorStateWith config candidate delegator amount hint).Ends stakes
      (fun state after => after = stakes ∧
        Enrolls (stakes.delegatorState.get delegator) delegator candidate amount state ∧
        booked stakes.delegatorState delegator candidate = none ∧
        stakes.candidateInfo.get delegator = none)
      (fun fault _ => ∃ reason, fault = .error reason) := by
  simp only [delegatorStateWith, ends_bind, ends_read]
  cases stored : stakes.delegatorState.get delegator with
  | none =>
      simp only [ends_bind, ends_ensure, ends_pure]
      exact ⟨fun free => ⟨trivial, rfl, booked_of_none stored candidate, free⟩,
        fun _ => ⟨_, rfl⟩⟩
  | some state =>
      have sorted := (sound.records delegator state stored).sorted
      have free := sound.apart delegator state stored
      simp only [ends_bind, ends_ensure, ends_pure]
      refine ⟨fun _ => ⟨fun _ => ⟨fun added => ?_, fun _ => ⟨_, rfl⟩⟩, fun _ => ⟨_, rfl⟩⟩,
        fun _ => ⟨_, rfl⟩⟩
      cases found : lookup Bond.owner state.delegations.entries candidate with
      | some bond =>
          have kept : state.delegations.insert (Bond.mk candidate amount) = _ :=
            OrderedSet.insert_of_present sorted (Option.isSome_iff_exists.mpr ⟨bond, found⟩)
          simp [Delegator.addDelegation, kept] at added
      | none =>
          obtain ⟨entries, outcome, insertedSorted, perm⟩ :=
            OrderedSet.insert_of_absent sorted
              (show lookup Bond.owner _ (Bond.mk candidate amount).owner = none from found)
          refine ⟨trivial, ⟨entries, insertedSorted, perm, ?_⟩, ?_, free⟩
          · simp [Delegator.addDelegation, outcome]
          · rw [booked_of_stored stored, Delegator.getBondAmount_eq_none]
            exact found

theorem quiet_delegateInner (sound : Sound config stakes) (amount candidateHint hint : Nat)
    (signed : signs delegator) :
    (delegateInner config candidate delegator amount candidateHint hint).Ends stakes
      (fun _ after => Quiet config may signs stakes after)
      (fun fault _ => Excused config stakes fault) := by
  simp only [delegateInner, reducibleBalance, ends_bind, ends_read, ends_ensure, ends_pure]
  refine ⟨fun _ => ⟨fun _ => ⟨fun minimum => ?_, fun _ => excused_error _⟩,
    fun _ => excused_error _⟩, fun _ => excused_error _⟩
  refine (ends_delegatorStateWith sound amount hint).mono ?_ ?_
  · rintro state after ⟨rfl, enrolls, fresh, apart⟩
    simp only [readCandidate, ends_bind, ends_read, ends_require]
    refine ⟨fun info stored => ⟨fun _ => ?_, fun _ => excused_error _⟩,
      fun _ => excused_error _⟩
    obtain ⟨top, bottom, storedTop, storedBottom⟩ := sound.exists_lists stored
    refine Ends.mono (ends_addDelegation storedTop storedBottom (sound.pooled stored)
      sound.records) ?_ ?_
    · rintro ⟨info', added, less⟩ after₁ ⟨kicked, mid, kicks,
        ⟨top', bottom', pool, rfl, pooled, same, adds⟩, isLess⟩
      simp only [ends_transferBtc, storeCandidate, storeDelegator, ends_write]
      refine ⟨fun _ => ?_, fun _ => excused_error _⟩
      have effect : Effect config may signs after _ := .delegates delegator candidate amount
        state info info' top bottom top' bottom' kicked mid less pool stored storedTop
        storedBottom minimum fresh apart signed enrolls kicks adds same isLess
      cases kicked with
      | none =>
          cases kicks
          exact ⟨⟨effect, pooled.store rfl⟩, sameStatuses_insert stored rfl same.1⟩
      | some bond =>
          obtain ⟨_, _, _, rfl⟩ := kicks
          exact ⟨⟨effect, pooled.store rfl⟩, sameStatuses_insert stored rfl same.1⟩
    · intro fault _ fails safe
      obtain ⟨listed, _⟩ := safe.agrees.listed stored storedTop storedBottom
      rcases fails listed safe.roomy with isError | ⟨bond, member, failed⟩
      · exact .inl isError
      · exact absurd failed (safe.kick_cannot_fail stored storedTop storedBottom member)
  · exact fun fault _ isError _ => .inl isError

theorem ends_delegateInner (sound : Sound config stakes) (amount candidateHint hint : Nat)
    (signed : signs delegator) :
    (delegateInner config candidate delegator amount candidateHint hint).Ends stakes
      (fun _ after => Settles config may signs stakes after)
      (fun fault _ => Excused config stakes fault) :=
  (quiet_delegateInner sound amount candidateHint hint signed).mono (fun _ _ => And.left)
    fun _ _ => id

/-! ## Requests -/

/-- Removing empty lists of requests changes no list of requests. -/
theorem requestsOf_foldl_remove (candidates : List AccountId)
    {scheduled : StorageMap AccountId (List (ScheduledRequest AccountId))}
    (isEmpty : ∀ candidate ∈ candidates, requestsOf scheduled candidate = [])
    (sequencer : AccountId) :
    requestsOf (candidates.foldl StorageMap.remove scheduled) sequencer =
      requestsOf scheduled sequencer := by
  induction candidates generalizing scheduled with
  | nil => rfl
  | cons candidate rest ih =>
      have removed : ∀ other, requestsOf (scheduled.remove candidate) other =
          requestsOf scheduled other := by
        intro other
        by_cases equal : other = candidate
        · rw [equal, isEmpty candidate List.mem_cons_self]
          simp [requestsOf]
        · simp [requestsOf, equal]
      rw [List.foldl_cons, ih, removed]
      intro other member
      rw [removed]
      exact isEmpty other (List.mem_cons_of_mem _ member)

theorem ends_hotfixRemoveDelegationRequestsExitedCandidates (sound : Sound config stakes)
    (candidates : List AccountId) :
    (hotfixRemoveDelegationRequestsExitedCandidates candidates).Ends stakes
      (fun _ after => Settles config may signs stakes after)
      (fun fault _ => ∃ reason, fault = .error reason) := by
  simp only [hotfixRemoveDelegationRequestsExitedCandidates, ends_bind, ends_read, ends_ensure,
    ends_write]
  refine ⟨fun _ => ⟨fun unused => ⟨.clears _ ?_, sound.pool⟩, fun _ => ⟨_, rfl⟩⟩,
    fun _ => ⟨_, rfl⟩⟩
  exact requestsOf_foldl_remove candidates fun candidate member => (unused candidate member).2

theorem ends_delegationScheduleRevoke (sound : Sound config stakes) (round : RoundInfo)
    (sequencer : AccountId) (allowed : may .schedules) :
    (delegationScheduleRevoke config round sequencer delegator).Ends stakes
      (fun _ after => Settles config may signs stakes after)
      (fun fault _ => ∃ reason, fault = .error reason) := by
  simp only [delegationScheduleRevoke, readDelegator, pushRequest, storeRequests,
    storeDelegator, ends_bind, ends_read, ends_require, ends_ensure, ends_write, ends_pure]
  refine ⟨fun state stored => ⟨fun absent => ⟨fun bonded recorded => ⟨fun _ => ?_,
    fun _ => ⟨_, rfl⟩⟩, fun _ => ⟨_, rfl⟩⟩, fun _ => ⟨_, rfl⟩⟩, fun _ => ⟨_, rfl⟩⟩
  exact ⟨.schedules delegator sequencer bonded state
    { delegator, action := .revoke bonded
      whenExecutable := saturatingAdd round.current config.revokeDelegationDelay }
    stored rfl absent recorded rfl allowed, sound.pool⟩

theorem ends_delegationScheduleBondDecrease (sound : Sound config stakes) (round : RoundInfo)
    (sequencer : AccountId) (decreaseAmount : Nat) (allowed : may .schedules) :
    (delegationScheduleBondDecrease config round sequencer delegator decreaseAmount).Ends stakes
      (fun _ after => Settles config may signs stakes after)
      (fun fault _ => ∃ reason, fault = .error reason) := by
  simp only [delegationScheduleBondDecrease, readDelegator, pushRequest, storeRequests,
    storeDelegator, ends_bind, ends_read, ends_require, ends_ensure, ends_write, ends_pure]
  refine ⟨fun state stored => ⟨fun absent => ⟨fun bonded recorded => ⟨fun below =>
    ⟨fun minimum => ⟨fun _ => ⟨fun _ => ?_, fun _ => ⟨_, rfl⟩⟩, fun _ => ⟨_, rfl⟩⟩,
    fun _ => ⟨_, rfl⟩⟩, fun _ => ⟨_, rfl⟩⟩, fun _ => ⟨_, rfl⟩⟩, fun _ => ⟨_, rfl⟩⟩,
    fun _ => ⟨_, rfl⟩⟩
  have fits : (DelegationAction.decrease decreaseAmount).Fits config bonded := by
    refine ⟨below, ?_⟩
    omega
  exact ⟨.schedules delegator sequencer bonded state
    { delegator, action := .decrease decreaseAmount
      whenExecutable := saturatingAdd round.current config.revokeDelegationDelay }
    stored rfl absent recorded fits allowed, sound.pool⟩

theorem ends_delegationCancelRequest (sound : Sound config stakes) (sequencer : AccountId) :
    (delegationCancelRequest sequencer delegator).Ends stakes
      (fun _ after => Settles config may signs stakes after)
      (fun fault _ => ∃ reason, fault = .error reason) := by
  simp only [delegationCancelRequest, readDelegator, cancelRequestWithState, storeRequests,
    storeDelegator, ends_bind, ends_read, ends_require, ends_write, Option.map_eq_some_iff]
  refine ⟨fun state stored => ⟨?_, fun _ => ⟨_, rfl⟩⟩, fun _ => ⟨_, rfl⟩⟩
  rintro _ ⟨request, found, rfl⟩
  exact ⟨.cancels delegator sequencer state request stored found, sound.pool⟩

/-! ## Executing a request -/

/-- A request of the delegator is due. -/
def RequestDue (round : RoundInfo) (stakes : Stakes AccountId Native)
    (sequencer delegator : AccountId) : Prop :=
  ∃ request, findRequest (stakes.requests sequencer) delegator = some request ∧
    request.whenExecutable ≤ round.current

/-- The request is a decrease. -/
def DecreaseDue (round : RoundInfo) (stakes : Stakes AccountId Native)
    (sequencer delegator : AccountId) : Prop :=
  ∃ request less, findRequest (stakes.requests sequencer) delegator = some request ∧
    request.whenExecutable ≤ round.current ∧ request.action = .decrease less

section Execute

variable {state : Delegator AccountId} {request : ScheduledRequest AccountId} {amount : Nat}

theorem ends_delegatorLeavesCandidate (sound : Sound config stakes) {btc : Ledger AccountId} :
    (delegatorLeavesCandidate config candidate delegator amount).Ends { stakes with btc }
      (fun _ after => ∃ info info' top bottom top' bottom' pool,
        stakes.candidateInfo.get candidate = some info ∧
        stakes.topDelegations.get candidate = some top ∧
        stakes.bottomDelegations.get candidate = some bottom ∧
        Removes config info top bottom delegator info' top' bottom' ∧ SameTerms info info' ∧
        PoolHolds config pool
          (activeTotals (stakes.candidateInfo.insert candidate info')) ∧
        after = { stakes with
          candidateInfo := stakes.candidateInfo.insert candidate info'
          topDelegations := stakes.topDelegations.insert candidate top'
          bottomDelegations := stakes.bottomDelegations.insert candidate bottom'
          total := stakes.total - amount
          candidatePool := pool
          btc })
      (fun _ _ => Safe config stakes →
        booked stakes.delegatorState delegator candidate ≠ some amount) := by
  simp only [delegatorLeavesCandidate, readCandidate, storeCandidate, ends_bind, ends_read,
    ends_require, ends_write]
  refine ⟨fun info stored => ?_, fun missing safe recorded => ?_⟩
  · obtain ⟨top, bottom, storedTop, storedBottom⟩ := sound.exists_lists stored
    refine Ends.mono (ends_rmDelegationIfExists storedTop storedBottom
      (by exact sound.pooled stored)) ?_ ?_
    · rintro ⟨info', inTop⟩ after ⟨top', bottom', pool, rfl, pooled, same, removes⟩
      exact ⟨info, info', top, bottom, top', bottom', pool, stored, storedTop, storedBottom,
        removes, same, pooled.store rfl, rfl⟩
    · intro _ _ fails safe recorded
      have agrees := safe.agrees
      have gone := fails (agrees.listed stored storedTop storedBottom).1 safe.roomy
        (agrees.recorded stored storedTop storedBottom recorded)
      rw [agrees.lookup_table stored storedTop storedBottom recorded] at gone
      cases gone
  · obtain ⟨info, stored⟩ := safe.agrees.exists_candidate recorded
    rw [stored] at missing
    cases missing

theorem quiet_executeRevoke (sound : Sound config stakes)
    (storedDelegator : stakes.delegatorState.get delegator = some state)
    (found : findRequest (stakes.requests candidate) delegator = some request)
    (action : request.action = .revoke amount) :
    (executeRevoke config candidate delegator state (stakes.requests candidate) amount).Ends
      stakes (fun _ after => Quiet config may signs stakes after)
      (fun _ _ => ¬Safe config stakes) := by
  have consistent := sound.records delegator state storedDelegator
  have booked_eq := booked_of_stored storedDelegator candidate
  have pending : pendingAmount (stakes.requests candidate) delegator = amount := by
    rw [pendingAmount_of_find found, action]
    rfl
  have fits : Safe config stakes → state.getBondAmount candidate = some amount := by
    intro safe
    obtain ⟨bonded, recorded, fits⟩ := safe.agrees.records.fits candidate delegator request found
    rw [action] at fits
    rw [booked_eq] at recorded
    rw [recorded, fits]
  have leave : Ends (do
      delegatorLeavesCandidate config candidate delegator amount
      storeRequests candidate (removeRequest (stakes.requests candidate) delegator)
      if decide (state.delegations.entries.length = 1) = true then
        removeDelegator delegator
      else storeDelegator delegator ((state.forget amount).without candidate))
      { stakes with btc := stakes.btc.refund config delegator (state.getBondAmount candidate) }
      (fun _ after => Quiet config may signs stakes after)
      (fun _ _ => ¬Safe config stakes) := by
    simp only [ends_bind]
    refine (ends_delegatorLeavesCandidate sound).mono ?_ ?_
    · rintro _ after ⟨info, info', top, bottom, top', bottom', pool, stored, storedTop,
        storedBottom, removes, same, holds, rfl⟩
      have effect : Effect config may signs stakes _ := .revokes delegator candidate amount
        state request info info' top bottom top' bottom' pool storedDelegator found action
        stored storedTop storedBottom removes same
      simp only [dropped, forgetRequest, found, Option.isSome_some, if_true,
        Delegator.droppedRecord, pending] at effect
      simp only [storeRequests, removeDelegator, storeDelegator, ends_ite, ends_write]
      constructor
      · intro leaving
        rw [if_pos leaving] at effect
        exact ⟨⟨effect, holds⟩, sameStatuses_insert stored rfl same.1⟩
      · intro stays
        rw [if_neg stays] at effect
        exact ⟨⟨effect, holds⟩, sameStatuses_insert stored rfl same.1⟩
    · intro _ _ fails safe
      exact fails safe (booked_eq.trans (fits safe))
  have start : Ends (do
      let removed ← (state.forget amount).rmDelegation config candidate
      delegatorLeavesCandidate config candidate delegator amount
      storeRequests candidate (removeRequest (stakes.requests candidate) delegator)
      if decide (state.delegations.entries.length = 1) = true then
        removeDelegator delegator
      else storeDelegator delegator removed.1) stakes
      (fun _ after => Quiet config may signs stakes after)
      (fun _ _ => ¬Safe config stakes) := by
    rw [ends_bind, ends_rmDelegation (consistent.forget amount)]
    refine ⟨fun bonded recorded => ⟨fun _ => ?_, fun refused safe => ?_⟩, fun absent => ?_⟩
    · have recorded : state.getBondAmount candidate = some bonded := recorded
      rw [recorded] at leave
      exact leave
    · exact refused (safe.refundable storedDelegator recorded)
    · have absent' : state.getBondAmount candidate = none := absent
      rw [absent', Delegator.without_of_none absent] at leave
      exact leave
  have alone : Safe config stakes → ¬decide (state.delegations.entries.length = 1) = true →
      amount ≤ state.total - config.minDelegation := by
    intro safe stays
    have kept := safe.agrees.records.kept delegator state storedDelegator
    have split := consistent.total_eq (fits safe)
    have length := consistent.sorted.distinct.length_erase
      (Delegator.getBondAmount_eq_some.mp (fits safe))
    cases others : erase Bond.owner state.delegations.entries candidate with
    | nil =>
        rw [others, List.length_nil] at length
        exact absurd (decide_eq_true length.symm) stays
    | cons bond rest =>
        have member : bond ∈ erase Bond.owner state.delegations.entries candidate := by
          simp [others]
        have least := kept.atLeast bond (mem_erase.mp member).1
        rw [others, Delegations.sumAmounts_cons] at split
        omega
  unfold executeRevoke
  dsimp only
  rw [ends_ite]
  refine ⟨fun stays => ?_, fun _ => start⟩
  rw [ends_bind, ends_ensure]
  exact ⟨fun _ => start, fun tooLittle safe => tooLittle (alone safe stays)⟩

theorem quiet_executeDecrease (sound : Sound config stakes)
    (storedDelegator : stakes.delegatorState.get delegator = some state)
    (found : findRequest (stakes.requests candidate) delegator = some request)
    (action : request.action = .decrease amount)
    (allowed : may (.decrease delegator candidate)) :
    (executeDecrease config candidate delegator state (stakes.requests candidate) amount).Ends
      stakes (fun _ after => Quiet config may signs stakes after)
      (fun _ _ => ¬Safe config stakes) := by
  have consistent := sound.records delegator state storedDelegator
  have isId := consistent.id
  subst isId
  have booked_eq := booked_of_stored storedDelegator candidate
  have fits : Safe config stakes → ∃ bonded, state.getBondAmount candidate = some bonded ∧
      amount < bonded ∧ amount + config.minDelegation ≤ bonded := by
    intro safe
    obtain ⟨bonded, recorded, fits⟩ := safe.agrees.records.fits candidate state.id request found
    rw [action] at fits
    rw [booked_eq] at recorded
    exact ⟨bonded, recorded, fits⟩
  simp only [executeDecrease, readCandidate, Delegator.totalSubIf, storeCandidate,
    storeRequests, storeDelegator, ends_bind, ends_read, ends_require, ends_ensure, ends_write,
    ends_pure, ends_transferBtc]
  refine ⟨fun bond taken => ?_, fun missing safe => ?_⟩
  · have isOwner := key_of_lookup taken
    have recorded : state.getBondAmount candidate = some bond.amount := by
      rw [Delegator.getBondAmount, taken]
      rfl
    have same : Safe config stakes → amount < bond.amount ∧
        amount + config.minDelegation ≤ bond.amount := by
      intro safe
      obtain ⟨bonded, recorded', fits⟩ := fits safe
      rw [recorded] at recorded'
      cases recorded'
      exact fits
    have held := consistent.le_total recorded
    refine ⟨fun below => ⟨fun info stored => ⟨fun _ => ⟨fun paid => ?_, fun refused safe => ?_⟩,
      fun tooLow safe => ?_⟩, fun missing safe => ?_⟩, fun tooMuch safe => ?_⟩
    · obtain ⟨top, bottom, storedTop, storedBottom⟩ := sound.exists_lists stored
      have lists : (info.decreaseDelegation config candidate state.id bond.amount
          amount).Ends { stakes with
            btc := stakes.btc.pay config config.palletAccount state.id amount } _ _ :=
        ends_decreaseDelegation (Nat.le_of_lt below) storedTop storedBottom
          (by exact sound.pooled stored)
      refine lists.mono ?_ ?_
      · rintro ⟨info', inTop⟩ after ⟨top', bottom', pool, rfl, pooled, same, changes⟩
        have effect : Effect config may signs stakes _ := .decreases state.id candidate
          bond.amount amount state request info info' top bottom top' bottom' pool
          storedDelegator allowed found action recorded below stored storedTop storedBottom changes
          same
        exact ⟨⟨effect, pooled.store rfl⟩, sameStatuses_insert stored rfl same.1⟩
      · intro _ _ fails safe
        have agrees := safe.agrees
        have isBooked := booked_eq.trans recorded
        have gone := fails (agrees.listed stored storedTop storedBottom).1 safe.roomy
          (agrees.recorded stored storedTop storedBottom isBooked)
        rw [agrees.lookup_table stored storedTop storedBottom isBooked] at gone
        cases gone
    · have covered := (total_le_staked storedDelegator).trans safe.funded.solvent
      have fitting := same safe
      exact refused (safe.funded.refundable_of_le (by omega) state.id)
    · have fitting := same safe
      exact tooLow (by omega)
    · obtain ⟨info, stored⟩ := safe.agrees.exists_candidate (booked_eq.trans recorded)
      rw [stored] at missing
      cases missing
    · exact tooMuch (same safe).1
  · obtain ⟨bonded, recorded, _⟩ := fits safe
    rw [Delegator.getBondAmount_eq_some.mp recorded] at missing
    cases missing

theorem quiet_delegationExecuteScheduledRequest (sound : Sound config stakes)
    (round : RoundInfo) (sequencer : AccountId)
    (allowed : DecreaseDue round stakes sequencer delegator →
      may (.decrease delegator sequencer)) :
    (delegationExecuteScheduledRequest config round sequencer delegator).Ends stakes
      (fun _ after => Quiet config may signs stakes after)
      (fun fault _ => Safe config stakes → (∃ reason, fault = .error reason) ∧
        ¬RequestDue round stakes sequencer delegator) := by
  simp only [delegationExecuteScheduledRequest, readDelegator, ends_bind, ends_read,
    ends_require, ends_ensure]
  refine ⟨fun state stored => ⟨fun request found => ⟨fun due => ?_, fun early => ?_⟩,
    fun missing => ?_⟩, fun missing safe => ?_⟩
  · cases action : request.action with
    | revoke amount =>
        exact (quiet_executeRevoke sound stored found action).mono (fun _ _ => id)
          fun _ _ fails safe => absurd safe fails
    | decrease amount =>
        exact (quiet_executeDecrease sound stored found action
          (allowed ⟨request, amount, found, due, action⟩)).mono (fun _ _ => id)
          fun _ _ fails safe => absurd safe fails
  · refine fun _ => ⟨⟨_, rfl⟩, ?_⟩
    rintro ⟨other, found', due⟩
    rw [found] at found'
    cases found'
    exact early due
  · refine fun _ => ⟨⟨_, rfl⟩, ?_⟩
    rintro ⟨other, found', _⟩
    rw [missing] at found'
    cases found'
  · refine ⟨⟨_, rfl⟩, ?_⟩
    rintro ⟨other, found', _⟩
    have none := safe.agrees.records.no_request missing sequencer
    have found' : findRequest (requestsOf stakes.delegationScheduledRequests sequencer)
        delegator = some other := found'
    rw [none] at found'
    cases found'

theorem ends_delegationExecuteScheduledRequest (sound : Sound config stakes)
    (round : RoundInfo) (sequencer : AccountId)
    (allowed : DecreaseDue round stakes sequencer delegator →
      may (.decrease delegator sequencer)) :
    (delegationExecuteScheduledRequest config round sequencer delegator).Ends stakes
      (fun _ after => Settles config may signs stakes after)
      (fun fault _ => Safe config stakes → (∃ reason, fault = .error reason) ∧
        ¬RequestDue round stakes sequencer delegator) :=
  (quiet_delegationExecuteScheduledRequest sound round sequencer allowed).mono
    (fun _ _ => And.left) fun _ _ => id

end Execute

/-! ## Bonding more -/

theorem quiet_delegationBondMoreWithoutEvent (sound : Sound config stakes) (more : Nat)
    (signed : signs delegator) :
    (delegationBondMoreWithoutEvent config delegator candidate more).Ends stakes
      (fun _ after => Quiet config may signs stakes after)
      (fun fault _ => Excused config stakes fault) := by
  simp only [delegationBondMoreWithoutEvent, Delegator.increaseDelegation, readDelegator,
    readCandidate, storeCandidate, storeDelegator, ends_bind, ends_read, ends_require,
    ends_ensure, ends_transferBtc]
  refine ⟨fun state storedDelegator => ⟨fun unrevoked => ⟨fun bond taken => ⟨fun _ =>
    ⟨fun info stored => ?_, fun _ => excused_error _⟩, fun _ => excused_error _⟩,
    fun _ => excused_error _⟩, fun _ => excused_error _⟩, fun _ => excused_error _⟩
  have consistent := sound.records delegator state storedDelegator
  have isOwner := consistent.id
  subst isOwner
  have recorded : state.getBondAmount candidate = some bond.amount := by
    rw [Delegator.getBondAmount, taken]
    rfl
  obtain ⟨top, bottom, storedTop, storedBottom⟩ := sound.exists_lists stored
  have lists : (info.increaseDelegation config candidate state.id bond.amount more).Ends
      { stakes with btc := stakes.btc.pay config state.id config.palletAccount more } _ _ :=
    ends_increaseDelegation storedTop storedBottom (by exact sound.pooled stored)
  refine lists.mono ?_ ?_
  · rintro ⟨info', inTop⟩ after ⟨top', bottom', pool, rfl, pooled, same, changes⟩
    have effect : ∀ pool, Effect config may signs stakes _ := fun pool =>
      .increases state.id candidate bond.amount more state info info' top bottom top' bottom'
        pool storedDelegator unrevoked recorded signed stored storedTop storedBottom changes same
    simp only [ends_ite, ends_bind, ends_write]
    refine ⟨?_, fun _ =>
      ⟨⟨effect pool, pooled.store rfl⟩, sameStatuses_insert stored rfl same.1⟩⟩
    rintro ⟨active, _⟩
    refine Ends.mono (ends_updateActive pooled ?_) ?_ fun _ _ => False.elim
    · rw [Function.update_self, activeTotal_of_active active]
      rfl
    · rintro _ after ⟨pool', rfl, holds⟩
      rw [Function.update_idem] at holds
      exact ⟨⟨effect pool', holds.store (activeTotal_of_active active)⟩,
        sameStatuses_insert stored rfl same.1⟩
  · intro fault _ fails safe
    have agrees := safe.agrees
    have isBooked := (booked_of_stored storedDelegator candidate).trans recorded
    have gone := fails (agrees.listed stored storedTop storedBottom).1 safe.roomy
      (agrees.recorded stored storedTop storedBottom isBooked)
    rw [agrees.lookup_table stored storedTop storedBottom isBooked] at gone
    cases gone

theorem ends_delegationBondMoreWithoutEvent (sound : Sound config stakes) (more : Nat)
    (signed : signs delegator) :
    (delegationBondMoreWithoutEvent config delegator candidate more).Ends stakes
      (fun _ after => Settles config may signs stakes after)
      (fun fault _ => Excused config stakes fault) :=
  (quiet_delegationBondMoreWithoutEvent sound more signed).mono (fun _ _ => And.left)
    fun _ _ => id

end Popsicle
