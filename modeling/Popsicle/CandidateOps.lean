import Popsicle.Effects

/-!
# Extrinsics of candidates

Each extrinsic that a candidate sends ends in one of the effects, or with an error.
-/

namespace Popsicle

open Foundation Exec Keyed

variable {AccountId Native : Type} [LinearOrder AccountId] {config : Config AccountId Native}
  {may : Withdrawal AccountId → Prop} {signs : AccountId → Prop} {stakes : Stakes AccountId Native}

/-! ## Joining -/

theorem ends_joinCandidatesInner (sound : Sound config stakes) (acc : AccountId)
    (candidateCount : Nat) :
    (joinCandidatesInner config acc candidateCount).Ends stakes
      (fun _ after => Settles config may signs stakes after)
      (fun fault _ => ∃ reason, fault = .error reason) := by
  simp only [joinCandidatesInner, storeCandidate, CandidateMetadata.insertTop,
    CandidateMetadata.insertBottom, storePool, ends_bind, ends_read, ends_ensure, ends_require,
    ends_write]
  refine ⟨fun fresh => ⟨fun apart => ⟨fun _ => ⟨fun result outcome => ⟨fun inserted =>
    ⟨fun _ => ⟨.joins acc _ result.1 fresh apart, ?_⟩, ?_⟩, ?_⟩, ?_⟩, ?_⟩, ?_⟩, ?_⟩
  · have holds := sound.pool.tryInsert outcome inserted
    change PoolHolds config result.1
      (activeTotals (stakes.candidateInfo.put acc (some (CandidateMetadata.new 0))))
    rw [activeTotals_put]
    exact holds
  all_goals exact fun _ => ⟨_, rfl⟩

/-! ## The pool -/

section Pool

variable {candidate : AccountId} {info : CandidateMetadata}

/-- A candidate that is no longer active is taken off the pool. -/
theorem ends_removeFromPool (sound : Sound config stakes)
    (stored : stakes.candidateInfo.get candidate = some info) (status : SequencerStatus)
    (idle : ¬({ info with status } : CandidateMetadata).isActive = true)
    (allowed : may .schedules ∨ ∀ when, status ≠ .leaving when)
    {excuse : Fault → Stakes AccountId Native → Prop} :
    Ends (do
        let (candidates, removed) := stakes.candidatePool.remove (Bond.fromOwner candidate)
        if removed then
          storePool candidates
        storeCandidate candidate { info with status }) stakes
      (fun _ after => Settles config may signs stakes after) excuse := by
  have timed : may .schedules ∨ (∀ when, status = .leaving when → info.status = .leaving when) ∧
      ∀ new, info.request = some new → info.request = some new :=
    allowed.imp_right fun stays =>
      ⟨fun when isLeaving => absurd isLeaving (stays when), fun _ => id⟩
  have amended : ∀ pool, Effect config may signs stakes _ := fun pool =>
    .amends candidate info status info.request pool stored (fun _ => .inl) timed
  have removed : PoolHolds config ⟨erase Bond.owner stakes.candidatePool.entries candidate⟩
      (activeTotals (stakes.candidateInfo.insert candidate { info with status })) := by
    rw [← StorageMap.put_some, activeTotals_put, activeTotal_of_not_active idle]
    exact sound.pool.remove
  simp only [BoundedOrderedSet.remove_eq sound.pool.sorted, Bond.fromOwner, storePool,
    storeCandidate, ends_bind, ends_ite, ends_write]
  refine ⟨fun _ => ⟨amended _, removed⟩, fun missing => ⟨amended stakes.candidatePool, ?_⟩⟩
  have absent : lookup Bond.owner stakes.candidatePool.entries candidate = none := by
    simpa using missing
  rw [erase_eq_self absent] at removed
  exact removed

theorem settles_online (sound : Sound config stakes)
    (stored : stakes.candidateInfo.get candidate = some info)
    {result : BoundedOrderedSet (Bond AccountId) × Bool}
    (outcome : stakes.candidatePool.tryInsert config.maxCandidates
      { owner := candidate, amount := info.goOnline.totalCounted } = some result)
    (inserted : result.2 = true) :
    Settles config may signs stakes { stakes with
      candidatePool := result.1
      candidateInfo := stakes.candidateInfo.insert candidate info.goOnline } := by
  refine ⟨.amends candidate info .active info.request result.1 stored (fun _ => .inl)
    (.inr ⟨nofun, fun _ => id⟩), ?_⟩
  have holds := sound.pool.tryInsert outcome inserted
  rw [← StorageMap.put_some, activeTotals_put]
  exact holds

end Pool

/-! ## Status -/

theorem ends_scheduleLeaveCandidates (sound : Sound config stakes) (round : RoundInfo)
    (sequencer : AccountId) (candidateCount : Nat) (allowed : may .schedules) :
    (scheduleLeaveCandidates config round sequencer candidateCount).Ends stakes
      (fun _ after => Settles config may signs stakes after)
      (fun fault _ => Excused config stakes fault) := by
  simp only [scheduleLeaveCandidates, readCandidate, CandidateMetadata.scheduleLeave,
    ends_bind, ends_read, ends_require, ends_ensure, ends_u32Result_nat, ends_pure]
  refine ⟨fun info stored => ⟨fun _ => ⟨fun _ => ⟨fun _ => ?_, fun _ => excused_error _⟩,
    fun _ => excused_overflow⟩, fun _ => excused_error _⟩, fun _ => excused_error _⟩
  have removed : Ends _ stakes (fun _ after => Settles config may signs stakes after)
      (fun fault _ => Excused config stakes fault) :=
    ends_removeFromPool sound stored
      (.leaving ((round.current + config.leaveCandidatesDelay) % (u32Max + 1)))
      (by simp [CandidateMetadata.isActive]) (.inl allowed)
  simpa only [ends_bind] using removed

theorem ends_goOfflineInner (sound : Sound config stakes) (sequencer : AccountId) :
    (goOfflineInner sequencer).Ends stakes
      (fun _ after => Settles config may signs stakes after)
      (fun fault after => (∃ reason, fault = .error reason) ∧ after = stakes) := by
  simp only [goOfflineInner, readCandidate, CandidateMetadata.goOffline, ends_bind, ends_read,
    ends_require, ends_ensure]
  refine ⟨fun info stored => ⟨fun _ => ?_, fun _ => ⟨⟨_, rfl⟩, trivial⟩⟩,
    fun _ => ⟨⟨_, rfl⟩, trivial⟩⟩
  have removed : Ends _ stakes (fun _ after => Settles config may signs stakes after)
      (fun fault after => (∃ reason, fault = Fault.error reason) ∧ after = stakes) :=
    ends_removeFromPool sound stored .idle (by simp [CandidateMetadata.isActive])
      (.inr fun _ => by rintro ⟨⟩)
  simpa only [ends_bind] using removed

theorem ends_cancelLeaveCandidates (sound : Sound config stakes) (sequencer : AccountId)
    (candidateCount : Nat) :
    (cancelLeaveCandidates config sequencer candidateCount).Ends stakes
      (fun _ after => Settles config may signs stakes after)
      (fun fault _ => ∃ reason, fault = .error reason) := by
  simp only [cancelLeaveCandidates, readCandidate, storePool, storeCandidate, ends_bind,
    ends_read, ends_require, ends_ensure, ends_write]
  exact ⟨fun info stored => ⟨fun _ => ⟨fun _ => ⟨fun result outcome =>
    ⟨fun inserted => settles_online sound stored outcome inserted, fun _ => ⟨_, rfl⟩⟩,
    fun _ => ⟨_, rfl⟩⟩, fun _ => ⟨_, rfl⟩⟩, fun _ => ⟨_, rfl⟩⟩, fun _ => ⟨_, rfl⟩⟩

theorem ends_goOnlineInner (sound : Sound config stakes) (sequencer : AccountId) :
    (goOnlineInner config sequencer).Ends stakes
      (fun _ after => Settles config may signs stakes after)
      (fun fault _ => ∃ reason, fault = .error reason) := by
  simp only [goOnlineInner, readCandidate, storePool, storeCandidate, ends_bind, ends_read,
    ends_require, ends_ensure, ends_write]
  exact ⟨fun info stored => ⟨fun _ => ⟨fun _ => ⟨fun result outcome =>
    ⟨fun inserted => settles_online sound stored outcome inserted, fun _ => ⟨_, rfl⟩⟩,
    fun _ => ⟨_, rfl⟩⟩, fun _ => ⟨_, rfl⟩⟩, fun _ => ⟨_, rfl⟩⟩, fun _ => ⟨_, rfl⟩⟩

/-! ## Self bond -/

theorem poolHolds_of_request (sound : Sound config stakes) {candidate : AccountId}
    {info : CandidateMetadata} (stored : stakes.candidateInfo.get candidate = some info)
    (request : Option CandidateBondLessRequest) :
    PoolHolds config stakes.candidatePool
      (activeTotals (stakes.candidateInfo.insert candidate { info with request })) :=
  PoolHolds.store (sound.pooled stored) rfl

theorem quiet_candidateBondMoreInner (sound : Sound config stakes) (sequencer : AccountId)
    (more : Nat) (signed : signs sequencer) :
    (candidateBondMoreInner config sequencer more).Ends stakes
      (fun _ after => Quiet config may signs stakes after)
      (fun fault _ => ∃ reason, fault = .error reason) := by
  simp only [candidateBondMoreInner, readCandidate, CandidateMetadata.bondMore,
    reducibleBalance, storeCandidate, ends_bind, ends_read, ends_require, ends_ensure,
    ends_write, ends_pure, ends_transferBtc]
  refine ⟨fun info stored => ⟨fun funded => ⟨fun _ => ?_, fun _ => ⟨_, rfl⟩⟩,
    fun _ => ⟨_, rfl⟩⟩, fun _ => ⟨_, rfl⟩⟩
  have bonded : ∀ pool, Effect config may signs stakes _ := fun pool =>
    .bondsMore sequencer info more pool stored funded signed
  rw [ends_ite]
  constructor
  · intro active
    have wasActive : info.isActive = true := active
    refine Ends.mono (ends_updateActive sound.pool ?_) ?_ fun _ _ => False.elim
    · rw [activeTotals, stored, activeTotal_of_active wasActive]
      rfl
    · rintro _ after ⟨pool, rfl, holds⟩
      exact ⟨⟨bonded pool, holds.store (activeTotal_of_active active)⟩,
        sameStatuses_insert stored rfl rfl⟩
  · intro idle
    have wasIdle : ¬info.isActive = true := idle
    refine ⟨⟨bonded stakes.candidatePool, PoolHolds.store (sound.pooled stored) ?_⟩,
      sameStatuses_insert stored rfl rfl⟩
    rw [activeTotal_of_not_active idle, activeTotal_of_not_active wasIdle]

theorem ends_candidateBondMoreInner (sound : Sound config stakes) (sequencer : AccountId)
    (more : Nat) (signed : signs sequencer) :
    (candidateBondMoreInner config sequencer more).Ends stakes
      (fun _ after => Settles config may signs stakes after)
      (fun fault _ => ∃ reason, fault = .error reason) :=
  (quiet_candidateBondMoreInner sound sequencer more signed).mono (fun _ _ => And.left)
    fun _ _ => id

theorem ends_scheduleCandidateBondLess (sound : Sound config stakes) (round : RoundInfo)
    (sequencer : AccountId) (less : Nat) (allowed : may .schedules) :
    (scheduleCandidateBondLess config round sequencer less).Ends stakes
      (fun _ after => Settles config may signs stakes after)
      (fun fault _ => Excused config stakes fault) := by
  simp only [scheduleCandidateBondLess, readCandidate, CandidateMetadata.scheduleBondLess,
    storeCandidate, ends_bind, ends_read, ends_require, ends_ensure, ends_write,
    ends_u32Result_nat, ends_pure]
  refine ⟨fun info stored => ⟨fun _ => ⟨fun above => ⟨fun _ => ⟨?_, ?_⟩,
    fun _ => excused_overflow⟩, fun _ => excused_error _⟩, fun _ => excused_error _⟩,
    fun _ => excused_error _⟩
  · refine .amends sequencer info info.status _ stakes.candidatePool stored ?_ (.inl allowed)
    rintro new ⟨⟩
    exact .inr above
  · exact poolHolds_of_request sound stored _

theorem ends_cancelCandidateBondLess (sound : Sound config stakes) (sequencer : AccountId) :
    (cancelCandidateBondLess sequencer).Ends stakes
      (fun _ after => Settles config may signs stakes after)
      (fun fault _ => ∃ reason, fault = .error reason) := by
  simp only [cancelCandidateBondLess, readCandidate, CandidateMetadata.cancelBondLess,
    storeCandidate, ends_bind, ends_read, ends_require, ends_write, ends_pure]
  refine ⟨fun info stored => ⟨fun _ _ => ⟨?_, ?_⟩, fun _ => ⟨_, rfl⟩⟩, fun _ => ⟨_, rfl⟩⟩
  · refine .amends sequencer info info.status none stakes.candidatePool stored ?_
      (.inr ⟨fun _ => id, by rintro _ ⟨⟩⟩)
    rintro new ⟨⟩
  · exact poolHolds_of_request sound stored none

/-- A pending decrease of the self bond is due. -/
def BondLessDue (round : RoundInfo) (stakes : Stakes AccountId Native)
    (candidate : AccountId) : Prop :=
  ∃ info request, stakes.candidateInfo.get candidate = some info ∧
    info.request = some request ∧ request.whenExecutable ≤ round.current

theorem quiet_executeCandidateBondLessInner (sound : Sound config stakes) (round : RoundInfo)
    (candidate : AccountId) :
    (executeCandidateBondLessInner config round candidate).Ends stakes
      (fun _ after => Quiet config may signs stakes after)
      (fun fault _ => (∃ reason, fault = .error reason) ∧
        (Safe config stakes → ¬BondLessDue round stakes candidate)) := by
  simp only [executeCandidateBondLessInner, readCandidate, CandidateMetadata.executeBondLess,
    CandidateMetadata.bondLess, storeCandidate, ends_bind, ends_read, ends_require,
    ends_ensure, ends_write, ends_pure, ends_transferBtc]
  refine ⟨fun info stored => ⟨fun request pending => ⟨fun due => ⟨fun _ => ?_, fun refused =>
    ⟨⟨_, rfl⟩, fun safe => ?_⟩⟩, fun early => ⟨⟨_, rfl⟩, ?_⟩⟩, fun nothing =>
    ⟨⟨_, rfl⟩, ?_⟩⟩, fun missing => ⟨⟨_, rfl⟩, ?_⟩⟩
  · have bonded : ∀ pool, Effect config may signs stakes _ := fun pool =>
      .bondsLess candidate info request pool stored pending
    simp only [ends_ite, ends_bind, ends_pure]
    constructor
    · intro active
      have wasActive : info.isActive = true := active
      refine Ends.mono (ends_updateActive sound.pool ?_) ?_ fun _ _ => False.elim
      · rw [activeTotals, stored, activeTotal_of_active wasActive]
        rfl
      · rintro _ after ⟨pool, rfl, holds⟩
        exact ⟨⟨bonded pool, holds.store (activeTotal_of_active wasActive)⟩,
          sameStatuses_insert stored rfl rfl⟩
    · intro idle
      have wasIdle : ¬info.isActive = true := idle
      refine ⟨⟨bonded stakes.candidatePool, PoolHolds.store (sound.pooled stored) ?_⟩,
        sameStatuses_insert stored rfl rfl⟩
      rw [activeTotal_of_not_active wasIdle]
      exact activeTotal_of_not_active wasIdle
  · have below := sound.requests candidate info stored request pending
    have owed : info.bond ≤ staked stakes := bond_le_staked stored
    have held : request.amount ≤ stakes.btc.balance config.palletAccount :=
      below.le.trans (owed.trans safe.funded.solvent)
    exact absurd (safe.funded.refundable_of_le held candidate) refused
  · rintro _ ⟨info', request', stored', pending', due⟩
    rw [stored] at stored'
    cases stored'
    rw [pending] at pending'
    cases pending'
    exact early due
  · rintro _ ⟨info', request', stored', pending', _⟩
    rw [stored] at stored'
    cases stored'
    rw [nothing] at pending'
    cases pending'
  · rintro _ ⟨info', _, stored', _⟩
    rw [missing] at stored'
    cases stored'

theorem ends_executeCandidateBondLessInner (sound : Sound config stakes) (round : RoundInfo)
    (candidate : AccountId) :
    (executeCandidateBondLessInner config round candidate).Ends stakes
      (fun _ after => Settles config may signs stakes after)
      (fun fault _ => (∃ reason, fault = .error reason) ∧
        (Safe config stakes → ¬BondLessDue round stakes candidate)) :=
  (quiet_executeCandidateBondLessInner sound round candidate).mono (fun _ _ => And.left)
    fun _ _ => id

/-! ## Leaving -/

/-- A candidate may leave now, and the hint of the caller suffices. -/
def ExitDue (round : RoundInfo) (stakes : Stakes AccountId Native) (candidate : AccountId)
    (candidateDelegationCount : Nat) : Prop :=
  ∃ info when, stakes.candidateInfo.get candidate = some info ∧ info.status = .leaving when ∧
    when ≤ round.current ∧ info.delegationCount ≤ candidateDelegationCount

/-- A candidate has left: what its delegators had staked is returned, and its entries are
gone. -/
inductive Exited (config : Config AccountId Native) (round : RoundInfo) (candidate : AccountId)
    (candidateDelegationCount : Nat) (before : Stakes AccountId Native) :
    Stakes AccountId Native → Prop where
  | left (info : CandidateMetadata) (when : Nat) (top bottom : Delegations AccountId)
      (returned : Stakes AccountId Native) (native : Native)
      (stored : before.candidateInfo.get candidate = some info)
      (leaving : info.status = .leaving when)
      (due : when ≤ round.current)
      (enough : info.delegationCount ≤ candidateDelegationCount)
      (storedTop : before.topDelegations.get candidate = some top)
      (storedBottom : before.bottomDelegations.get candidate = some bottom)
      (returns : Returns config candidate (table top bottom) before returned) :
      Exited config round candidate candidateDelegationCount before { before with
        delegatorState := returned.delegatorState
        candidateInfo := before.candidateInfo.remove candidate
        delegationScheduledRequests := returned.delegationScheduledRequests.remove candidate
        topDelegations := before.topDelegations.remove candidate
        bottomDelegations := before.bottomDelegations.remove candidate
        total := before.total - (info.bond + top.total + bottom.total)
        btc := returned.btc
        native }

/-- The exit of a candidate settles. -/
theorem Exited.settles {round : RoundInfo} {candidate : AccountId}
    {candidateDelegationCount : Nat} {after : Stakes AccountId Native}
    (exited : Exited config round candidate candidateDelegationCount stakes after)
    (sound : Sound config stakes)
    (allowed : ExitDue round stakes candidate candidateDelegationCount →
      may (.exit candidate)) :
    Settles config may signs stakes after := by
  cases exited with
  | left info when top bottom returned native stored leaving due enough storedTop storedBottom
      returns =>
      refine ⟨.exits candidate info top bottom returned native
        (allowed ⟨info, when, stored, leaving, due, enough⟩) stored storedTop storedBottom
        returns, ?_⟩
      have idle : ¬info.isActive = true := by simp [CandidateMetadata.isActive, leaving]
      have holds := sound.pooled stored
      unfold Pooled at holds
      have none : activeTotal (some info) = activeTotal none := activeTotal_of_not_active idle
      rw [none, ← activeTotals_put] at holds
      exact holds

theorem exited_executeLeaveCandidates (sound : Sound config stakes) (round : RoundInfo)
    (candidate : AccountId) (candidateDelegationCount : Nat) :
    (executeLeaveCandidates config round candidate candidateDelegationCount).Ends stakes
      (fun _ after => Exited config round candidate candidateDelegationCount stakes after)
      (fun fault _ => Safe config stakes → (∃ reason, fault = .error reason) ∧
        ¬ExitDue round stakes candidate candidateDelegationCount) := by
  simp only [executeLeaveCandidates, executeLeaveCandidatesInner, readCandidate,
    CandidateMetadata.readTop, CandidateMetadata.readBottom, ends_bind, ends_read,
    ends_require, ends_ensure, ends_write]
  refine ⟨fun info stored => ⟨fun enough => ⟨fun info' stored' => ?_, fun missing => ?_⟩,
    fun tooMany => ?_⟩, fun missing => ?_⟩
  · rw [stored] at stored'
    cases stored'
    obtain ⟨top, bottom, storedTop, storedBottom⟩ := sound.exists_lists stored
    cases status : info.status with
    | active | idle =>
        simp only [CandidateMetadata.canLeave, status, ends_fail]
        refine fun _ => ⟨⟨_, rfl⟩, ?_⟩
        rintro ⟨other, when, stored', leaving, _⟩
        rw [stored] at stored'
        cases stored'
        rw [status] at leaving
        cases leaving
    | leaving when =>
        simp only [CandidateMetadata.canLeave, status, ends_ensure, storedTop,
          Option.some.injEq, forall_eq', reduceCtorEq, false_implies, and_true]
        refine ⟨fun due => ?_, fun early _ => ⟨⟨_, rfl⟩, ?_⟩⟩
        · refine Ends.mono (ends_returnStakes fun account state => sound.records account state)
            ?_ ?_
          · intro _ middle first
            have frame := first.frame
            have consistent := (first.records fun account state => sound.records account state).1
            have sameBottom : middle.bottomDelegations.get candidate = some bottom := by
              rw [frame]
              exact storedBottom
            simp only [sameBottom, Option.some.injEq, forall_eq', reduceCtorEq, false_implies,
              and_true]
            refine Ends.mono (ends_returnStakes fun account state => consistent account state) ?_ ?_
            · intro _ returned second
              have start := first.with_lists stakes.topDelegations stakes.bottomDelegations
              have rest := second.with_lists stakes.topDelegations stakes.bottomDelegations
              have exited := Exited.left info when top bottom _
                (config.currency.removeLock stakes.native candidate) stored status due enough
                storedTop storedBottom (start.append rest)
              rw [second.frame, frame]
              simp only [StorageMap.remove_remove_self]
              exact exited
            · intro _ _ fails safe
              have clean := safe.agrees.records.cleanExit safe.minDelegation candidate
              have returnable := safe.agrees.returnable clean stored storedTop storedBottom
              have start := first.with_lists stakes.topDelegations stakes.bottomDelegations
              have rest := returnable.rest start
              have funded := start.funded sound.records safe.funded
              exact (fails ⟨rest.records, rest.clean, rest.distinct, rest.amounts⟩
                ⟨funded.plain, funded.covered, funded.unburnt⟩).elim
          · intro _ _ fails safe
            have clean := safe.agrees.records.cleanExit safe.minDelegation candidate
            have returnable := safe.agrees.returnable clean stored storedTop storedBottom
            have first : Returnable config candidate top.delegations stakes :=
              ⟨returnable.records, returnable.clean,
                returnable.distinct.sublist (List.sublist_append_left _ _),
                fun bond member => returnable.amounts bond (List.mem_append_left _ member)⟩
            exact (fails ⟨first.records, first.clean, first.distinct, first.amounts⟩
              ⟨safe.funded.plain, safe.funded.covered, safe.funded.unburnt⟩).elim
        · rintro ⟨other, when', stored', leaving, due, _⟩
          rw [stored] at stored'
          cases stored'
          rw [status] at leaving
          cases leaving
          exact early due
  · rw [stored] at missing
    cases missing
  · refine fun _ => ⟨⟨_, rfl⟩, ?_⟩
    rintro ⟨other, _, stored', _, _, few⟩
    rw [stored] at stored'
    cases stored'
    exact tooMany few
  · refine fun _ => ⟨⟨_, rfl⟩, ?_⟩
    rintro ⟨other, _, stored', _⟩
    rw [missing] at stored'
    cases stored'

theorem ends_executeLeaveCandidates (sound : Sound config stakes) (round : RoundInfo)
    (candidate : AccountId) (candidateDelegationCount : Nat)
    (allowed : ExitDue round stakes candidate candidateDelegationCount →
      may (.exit candidate)) :
    (executeLeaveCandidates config round candidate candidateDelegationCount).Ends stakes
      (fun _ after => Settles config may signs stakes after)
      (fun fault _ => Safe config stakes → (∃ reason, fault = .error reason) ∧
        ¬ExitDue round stakes candidate candidateDelegationCount) :=
  (exited_executeLeaveCandidates sound round candidate candidateDelegationCount).mono
    (fun _ _ exited => exited.settles sound allowed) fun _ _ => id

end Popsicle
