import Popsicle.Competition
import Popsicle.Inactivity

/-!
# Which extrinsics are accepted

An extrinsic of the staking pallet succeeds exactly under a condition on the records that
everybody can look up.  The lists of a candidate, the escrow and the asset are never the
reason for a refusal, but for a full pair of lists and for what the signer holds.
-/

namespace Popsicle

open Foundation Exec Keyed

variable {AccountId Native : Type} [LinearOrder AccountId] {config : Config AccountId Native}

/-! ## The conditions -/

/-- A number of a round does not overflow, or the build does not look. -/
def Countable (config : Config AccountId Native) (round : Nat) : Prop :=
  ¬(config.overflowChecks = true ∧ u32Max < round)

/-- How many candidates are active. -/
def Stakes.poolSize (stakes : Stakes AccountId Native) : Nat :=
  stakes.candidatePool.entries.length

/-- An account can become a candidate. -/
structure MayJoin (config : Config AccountId Native) (stakes : Stakes AccountId Native)
    (account : AccountId) (candidateCount : Nat) : Prop where
  noCandidate : stakes.candidateInfo.get account = none
  noDelegator : stakes.delegatorState.get account = none
  hint : stakes.poolSize ≤ candidateCount
  room : stakes.poolSize < config.maxCandidates
  funded : config.minCandidateStk ≤ config.currency.freeBalance stakes.native account

/-- An account can have one more delegation, to a candidate that it has none to. -/
structure MayDelegate (config : Config AccountId Native) (stakes : Stakes AccountId Native)
    (delegator candidate : AccountId) (delegationCount : Nat) : Prop where
  noCandidate : stakes.candidateInfo.get delegator = none
  fresh : booked stakes.delegatorState delegator candidate = none
  room : ∀ state, stakes.delegatorState.get delegator = some state →
    state.delegations.entries.length ≤ delegationCount ∧
      state.delegations.entries.length < config.maxDelegationsPerDelegator

/-- A candidate takes a delegation: it has a place free, or a smaller delegation. -/
def Takes (config : Config AccountId Native) (stakes : Stakes AccountId Native)
    (candidate : AccountId) (info : CandidateMetadata) (amount : Nat) : Prop :=
  info.delegationCount < places config ∨
    ∃ other less, booked stakes.delegatorState other candidate = some less ∧ less < amount

/-- A delegation can be decreased, now and by what is pending in addition. -/
structure MayDecrease (config : Config AccountId Native) (stakes : Stakes AccountId Native)
    (delegator candidate : AccountId) (less : Nat) : Prop where
  idle : findRequest (stakes.requests candidate) delegator = none
  stays : ∃ state bonded, stakes.delegatorState.get delegator = some state ∧
    state.getBondAmount candidate = some bonded ∧ less < bonded ∧
      config.minDelegation ≤ bonded - less ∧
      less ≤ state.total - state.lessTotal - config.minDelegation

/-- What a signer needs for a call that only concerns stakes. -/
def Stakes.Accepts (config : Config AccountId Native) (round : RoundInfo)
    (stakes : Stakes AccountId Native) (who : AccountId) : Call AccountId → Prop
  | .chargeRewardAccount amount =>
      ∃ native, config.currency.transfer stakes.native who config.palletAccount amount true =
        some native
  | .joinCandidates candidateCount => MayJoin config stakes who candidateCount
  | .scheduleLeaveCandidates candidateCount =>
      ∃ info, stakes.candidateInfo.get who = some info ∧ info.isLeaving = false ∧
        stakes.poolSize ≤ candidateCount ∧
        Countable config (round.current + config.leaveCandidatesDelay)
  | .executeLeaveCandidates candidate candidateDelegationCount =>
      ExitDue round stakes candidate candidateDelegationCount
  | .cancelLeaveCandidates candidateCount =>
      ∃ info, stakes.candidateInfo.get who = some info ∧ info.isLeaving = true ∧
        stakes.poolSize ≤ candidateCount ∧ stakes.poolSize < config.maxCandidates
  | .goOffline => ∃ info, stakes.candidateInfo.get who = some info ∧ info.isActive = true
  | .goOnline =>
      ∃ info, stakes.candidateInfo.get who = some info ∧ info.status = .idle ∧
        stakes.poolSize < config.maxCandidates
  | .candidateBondMore more =>
      ∃ info, stakes.candidateInfo.get who = some info ∧ more ≤ stakes.btc.balance who
  | .scheduleCandidateBondLess less =>
      ∃ info, stakes.candidateInfo.get who = some info ∧ info.request = none ∧
        less < info.bond ∧ Countable config (round.current + config.candidateBondLessDelay)
  | .executeCandidateBondLess candidate => BondLessDue round stakes candidate
  | .cancelCandidateBondLess =>
      ∃ info request, stakes.candidateInfo.get who = some info ∧ info.request = some request
  | .delegate candidate amount candidateDelegationCount delegationCount =>
      ∃ info, stakes.candidateInfo.get candidate = some info ∧ info.isActive = true ∧
        amount ≤ stakes.btc.balance who ∧ config.minDelegation ≤ amount ∧
        MayDelegate config stakes who candidate delegationCount ∧
        info.delegationCount ≤ candidateDelegationCount ∧
        Takes config stakes candidate info amount
  | .scheduleRevokeDelegation sequencer =>
      findRequest (stakes.requests sequencer) who = none ∧
        ∃ bonded, booked stakes.delegatorState who sequencer = some bonded
  | .delegatorBondMore candidate more =>
      delegationRequestRevokeExists (stakes.requests candidate) who = false ∧
        (∃ bonded, booked stakes.delegatorState who candidate = some bonded) ∧
        more ≤ stakes.btc.balance who
  | .scheduleDelegatorBondLess candidate less => MayDecrease config stakes who candidate less
  | .executeDelegationRequest delegator candidate =>
      RequestDue round stakes candidate delegator
  | .cancelDelegationRequest candidate =>
      ∃ request, findRequest (stakes.requests candidate) who = some request
  | .hotfixRemoveDelegationRequestsExitedCandidates candidates =>
      candidates.length < 100 ∧ ∀ candidate ∈ candidates,
        stakes.candidateInfo.get candidate = none ∧ stakes.requests candidate = []
  | _ => False

/-- A computation succeeds exactly under a condition. -/
def Decides {σ : Type} (body : Exec σ Fault Unit) (state : σ) (condition : Prop) : Prop :=
  body.Ends state (fun _ _ => condition) fun _ _ => ¬condition

theorem Decides.ok_iff {σ : Type} {body : Exec σ Fault Unit} {state : σ} {condition : Prop}
    (decides : Decides body state condition) : (body state).1 = .ok () ↔ condition := by
  rcases run : body state with ⟨fault | _, after⟩
  · exact iff_of_false (by rintro ⟨⟩) (Ends.of_error decides run)
  · exact iff_of_true rfl (Ends.of_ok decides run)

/-! ## Candidates -/

section Candidates

variable {stakes : Stakes AccountId Native} {round : RoundInfo} {who : AccountId}

omit [LinearOrder AccountId] in
/-- A call that begins by reading the metadata of a candidate. -/
theorem decides_readCandidate {candidate : AccountId}
    {next : CandidateMetadata → StakesM AccountId Native Unit}
    {condition : CandidateMetadata → Prop}
    (decides : ∀ info, stakes.candidateInfo.get candidate = some info →
      Decides (next info) stakes (condition info)) :
    Decides (readCandidate candidate >>= next) stakes
      (∃ info, stakes.candidateInfo.get candidate = some info ∧ condition info) := by
  simp only [Decides, readCandidate, ends_bind, ends_read, ends_require]
  refine ⟨fun info stored => ?_, fun missing => by simp [missing]⟩
  simp only [stored, Option.some.injEq, exists_eq_left']
  exact decides info stored

theorem PoolHolds.ends_tryInsert {pool : BoundedOrderedSet (Bond AccountId)}
    {totals : AccountId → Option Nat} (holds : PoolHolds config pool totals) {bond : Bond AccountId}
    (absent : totals bond.owner = none) {fault : Fault}
    {post : BoundedOrderedSet (Bond AccountId) × Bool → Stakes AccountId Native → Prop}
    {excuse : Fault → Stakes AccountId Native → Prop}
    (inserted : ∀ candidates, pool.entries.length < config.maxCandidates →
      post (candidates, true) stakes)
    (refused : ¬pool.entries.length < config.maxCandidates → excuse fault stakes) :
    (require (pool.tryInsert config.maxCandidates bond) fault :
      StakesM AccountId Native _).Ends stakes post excuse := by
  have missing : lookup Bond.owner pool.entries bond.owner = none := by
    rw [← Option.not_isSome_iff_eq_none, holds.isSome_lookup, absent]
    simp
  rw [ends_require]
  constructor
  · rintro ⟨candidates, isNew⟩ outcome
    rcases BoundedOrderedSet.tryInsert_cases holds.sorted outcome with
      ⟨_, present⟩ | ⟨rfl, _, _, perm, bounded⟩
    · rw [missing] at present
      cases present
    · have length := perm.length_eq
      rw [List.length_cons] at length
      exact inserted candidates (by omega)
  · intro failed
    refine refused fun room => ?_
    obtain ⟨_, outcome, _⟩ := BoundedOrderedSet.tryInsert_of_absent holds.sorted missing room
    rw [outcome] at failed
    cases failed

omit [LinearOrder AccountId] in
theorem activeTotals_of_not_active {info : CandidateMetadata}
    (stored : stakes.candidateInfo.get who = some info) (idle : info.isActive = false) :
    activeTotals stakes.candidateInfo who = none := by
  rw [activeTotals, stored]
  exact activeTotal_of_not_active (by simp [idle])

theorem decides_joinCandidatesInner (sound : Sound config stakes) (candidateCount : Nat) :
    Decides (joinCandidatesInner config who candidateCount) stakes
      (MayJoin config stakes who candidateCount) := by
  simp only [Decides, joinCandidatesInner, storeCandidate, CandidateMetadata.insertTop,
    CandidateMetadata.insertBottom, storePool, ends_bind, ends_read, ends_ensure, ends_write]
  refine ⟨fun noCandidate => ⟨fun noDelegator => ⟨fun hint => ?_, fun low may => low may.hint⟩,
    fun exists' may => exists' may.noDelegator⟩, fun exists' may => exists' may.noCandidate⟩
  have absent : activeTotals stakes.candidateInfo who = none := by
    rw [activeTotals, noCandidate]
    rfl
  refine sound.pool.ends_tryInsert absent (fun _ room => ?_) fun full may => full may.room
  exact ⟨fun _ => ⟨fun funded => ⟨noCandidate, noDelegator, hint, room, funded⟩,
    fun poor may => poor may.funded⟩, fun notNew => absurd rfl notNew⟩

theorem decides_scheduleLeaveCandidates (candidateCount : Nat) :
    Decides (scheduleLeaveCandidates config round who candidateCount) stakes
      (stakes.Accepts config round who (.scheduleLeaveCandidates candidateCount)) := by
  refine decides_readCandidate fun info _ => ?_
  simp only [Decides, CandidateMetadata.scheduleLeave, storePool, storeCandidate, ends_bind,
    ends_read, ends_ensure, ends_u32Result_nat, ends_pure, ends_ite, ends_write]
  refine ⟨fun staying => ⟨fun countable => ⟨fun hint => ?_, fun low may => low may.2.1⟩,
    fun overflows may => may.2.2 overflows⟩, fun leaving may => leaving may.1⟩
  exact ⟨fun _ => ⟨staying, hint, countable⟩, fun _ => ⟨staying, hint, countable⟩⟩

theorem decides_cancelLeaveCandidates (sound : Sound config stakes) (candidateCount : Nat) :
    Decides (cancelLeaveCandidates config who candidateCount) stakes
      (stakes.Accepts config round who (.cancelLeaveCandidates candidateCount)) := by
  refine decides_readCandidate fun info stored => ?_
  simp only [Decides, storePool, storeCandidate, ends_bind, ends_read, ends_ensure, ends_write]
  refine ⟨fun leaving => ⟨fun hint => ?_, fun low may => low may.2.1⟩,
    fun staying may => staying may.1⟩
  have idle : info.isActive = false := by
    cases status : info.status <;>
      simp_all [CandidateMetadata.isActive, CandidateMetadata.isLeaving]
  refine sound.pool.ends_tryInsert (activeTotals_of_not_active stored idle) (fun _ room => ?_)
    fun full may => full may.2.2
  exact ⟨fun _ => ⟨leaving, hint, room⟩, fun notNew => absurd rfl notNew⟩

theorem decides_goOfflineInner :
    Decides (goOfflineInner who) stakes (stakes.Accepts config round who .goOffline) := by
  refine decides_readCandidate fun info _ => ?_
  simp only [Decides, storePool, storeCandidate, ends_bind, ends_read, ends_ensure, ends_ite,
    ends_write]
  exact ⟨fun active => ⟨fun _ => active, fun _ => active⟩, id⟩

theorem decides_goOnlineInner (sound : Sound config stakes) :
    Decides (goOnlineInner config who) stakes (stakes.Accepts config round who .goOnline) := by
  refine decides_readCandidate fun info stored => ?_
  simp only [Decides, storePool, storeCandidate, ends_bind, ends_read, ends_ensure, ends_write]
  refine ⟨fun inactive => ⟨fun staying => ?_, fun leaving may => ?_⟩, fun active may => ?_⟩
  · have idle : info.status = .idle := by
      cases status : info.status <;>
        simp_all [CandidateMetadata.isActive, CandidateMetadata.isLeaving]
    refine sound.pool.ends_tryInsert (activeTotals_of_not_active stored inactive)
      (fun _ room => ?_) fun full may => full may.2
    exact ⟨fun _ => ⟨idle, room⟩, fun notNew => absurd rfl notNew⟩
  · exact leaving (by simp [CandidateMetadata.isLeaving, may.1])
  · exact active (by simp [CandidateMetadata.isActive, may.1])

theorem decides_candidateBondMoreInner (safe : Safe config stakes) (more : Nat) :
    Decides (candidateBondMoreInner config who more) stakes
      (stakes.Accepts config round who (.candidateBondMore more)) := by
  refine decides_readCandidate fun info stored => ?_
  simp only [Decides, CandidateMetadata.bondMore, reducibleBalance, storeCandidate, ends_bind,
    ends_read, ends_ensure, ends_write, ends_pure, ends_transferBtc, ends_ite]
  refine ⟨fun funded => ⟨fun _ => ⟨fun active => ?_, fun _ => funded⟩, fun unpaid => ?_⟩,
    fun poor may => poor may⟩
  · have wasActive : info.isActive = true := active
    refine Ends.mono (ends_updateActive safe.sound.pool ?_) (fun _ _ _ => funded)
      fun _ _ => False.elim
    rw [activeTotals, stored, activeTotal_of_active wasActive]
    rfl
  · exact absurd (safe.funded.plain.accepts _ _ _ _ funded) unpaid

theorem decides_scheduleCandidateBondLess (less : Nat) :
    Decides (scheduleCandidateBondLess config round who less) stakes
      (stakes.Accepts config round who (.scheduleCandidateBondLess less)) := by
  refine decides_readCandidate fun info _ => ?_
  simp only [Decides, CandidateMetadata.scheduleBondLess, storeCandidate, ends_bind, ends_ensure,
    ends_write, ends_u32Result_nat, ends_pure]
  exact ⟨fun idle => ⟨fun below => ⟨fun countable => ⟨idle, below, countable⟩,
    fun overflows may => may.2.2 overflows⟩, fun tooMuch may => tooMuch may.2.1⟩,
    fun pending may => pending may.1⟩

theorem decides_executeCandidateBondLessInner (safe : Safe config stakes) (candidate : AccountId) :
    Decides (executeCandidateBondLessInner config round candidate) stakes
      (stakes.Accepts config round who (.executeCandidateBondLess candidate)) := by
  have settles : (executeCandidateBondLessInner config round candidate).Ends stakes
      (fun _ after => Settles config (fun _ => True) (fun _ => True) stakes after) _ :=
    ends_executeCandidateBondLessInner safe.sound round candidate
  have due : (executeCandidateBondLessInner config round candidate).Ends stakes
      (fun _ _ => BondLessDue round stakes candidate) fun _ _ => True := by
    simp only [executeCandidateBondLessInner, readCandidate, CandidateMetadata.executeBondLess,
      ends_bind, ends_read, ends_require, ends_ensure, implies_true, and_true]
    exact fun info stored request pending isDue => .of_forall
      (fun _ _ => .of_forall (fun _ _ => ⟨info, request, stored, pending, isDue⟩)
        fun _ _ => trivial) fun _ _ => trivial
  exact (due.and settles).mono (fun _ _ => And.left) fun _ _ fails => fails.2.2 safe

theorem decides_cancelCandidateBondLess :
    Decides (cancelCandidateBondLess who) stakes
      (stakes.Accepts config round who .cancelCandidateBondLess) := by
  simp only [Decides, cancelCandidateBondLess, readCandidate, CandidateMetadata.cancelBondLess,
    storeCandidate, Stakes.Accepts, ends_bind, ends_read, ends_require, ends_write, ends_pure]
  exact ⟨fun info stored => ⟨fun request pending => ⟨info, request, stored, pending⟩,
    fun nothing => by simp [stored, nothing]⟩, fun missing => by simp [missing]⟩

theorem decides_executeLeaveCandidates (safe : Safe config stakes) (candidate : AccountId)
    (candidateDelegationCount : Nat) :
    Decides (executeLeaveCandidates config round candidate candidateDelegationCount) stakes
      (stakes.Accepts config round who
        (.executeLeaveCandidates candidate candidateDelegationCount)) := by
  refine (exited_executeLeaveCandidates safe.sound round candidate candidateDelegationCount).mono
    ?_ fun _ _ fails => (fails safe).2
  rintro _ _ ⟨info, when, _, _, _, _, stored, leaving, due, enough⟩
  exact ⟨info, when, stored, leaving, due, enough⟩

end Candidates

/-! ## Delegators -/

section Delegators

variable {stakes : Stakes AccountId Native} {round : RoundInfo} {who candidate : AccountId}
  {info : CandidateMetadata} {top bottom : Delegations AccountId} {amount : Nat}

omit [LinearOrder AccountId] in
theorem Delegations.exists_lowest {self : Delegations AccountId}
    (nonempty : self.delegations ≠ []) :
    ∃ bond ∈ self.delegations, bond.amount = self.lowestDelegationAmount := by
  obtain ⟨init, last, split⟩ := (List.eq_nil_or_concat self.delegations).resolve_left nonempty
  rw [List.concat_eq_append] at split
  exact ⟨last, by simp [split], (Delegations.lowestDelegationAmount_append split).symm⟩

omit [LinearOrder AccountId] in
/-- Full lists whose delegations are all as large refuse a delegation. -/
theorem Listed.refuses_iff (listed : Listed config info top bottom) (roomy : Roomy config) :
    info.Refuses amount ↔ (table top bottom).length = places config ∧
      ∀ bond ∈ table top bottom, amount ≤ bond.amount := by
  constructor
  · rintro ⟨_, isFull, atMost⟩
    obtain ⟨length, least⟩ := listed.bottom_full isFull
    exact ⟨length, fun bond member => atMost.trans (least bond member)⟩
  · rintro ⟨length, atMost⟩
    rw [table, List.length_append, places] at length
    have topLength := listed.tiers.topLength
    have bottomLength := listed.tiers.bottomLength
    have refused : ∀ {list : Delegations AccountId}, list.delegations ⊆ table top bottom →
        0 < list.delegations.length → amount ≤ list.lowestDelegationAmount := by
      intro list within positive
      obtain ⟨bond, member, isLowest⟩ :=
        Delegations.exists_lowest (List.length_pos_iff.mp positive)
      rw [← isLowest]
      exact atMost bond (within member)
    obtain ⟨topRoom, bottomRoom⟩ := roomy
    refine ⟨⟨?_, ?_⟩, ?_, ?_⟩
    · rw [listed.cachedTop.2.1, Delegations.cachedCapacity_eq_full]
      omega
    · rw [listed.cachedTop.1]
      exact refused (List.subset_append_left _ _) (by omega)
    · rw [listed.cachedBottom.2.2, Delegations.cachedCapacity_eq_full]
      omega
    · rw [listed.cachedBottom.1]
      exact refused (List.subset_append_right _ _) (by omega)

theorem Safe.takes_iff (safe : Safe config stakes)
    (stored : stakes.candidateInfo.get candidate = some info) :
    Takes config stakes candidate info amount ↔ ¬info.Refuses amount := by
  obtain ⟨top, bottom, storedTop, storedBottom⟩ := safe.sound.exists_lists stored
  obtain ⟨listed, _⟩ := safe.agrees.listed stored storedTop storedBottom
  rw [listed.refuses_iff safe.roomy, ← listed.delegationCount]
  have atMost := listed.table_length
  rw [← listed.delegationCount] at atMost
  constructor
  · rintro (room | ⟨other, less, recorded, smaller⟩) ⟨length, least⟩
    · omega
    · have found := safe.agrees.lookup_table stored storedTop storedBottom recorded
      exact absurd (least _ (mem_of_lookup found)) (Nat.not_le.mpr smaller)
  · intro notRefused
    by_cases room : info.delegationCount < places config
    · exact .inl room
    · have smaller : ¬∀ bond ∈ table top bottom, amount ≤ bond.amount := fun all =>
        notRefused ⟨by omega, all⟩
      push Not at smaller
      obtain ⟨bond, member, smaller⟩ := smaller
      exact .inr ⟨bond.owner, bond.amount,
        safe.agrees.booked_of_mem stored storedTop storedBottom member, smaller⟩

theorem ends_addDelegation_refuses {delegation : Bond AccountId} :
    (info.addDelegation config candidate delegation).Ends stakes
      (fun _ _ => ¬info.Refuses delegation.amount) fun _ _ => True := by
  unfold CandidateMetadata.addDelegation
  split
  next isFull =>
    rw [ends_ite]
    constructor
    · intro greater
      refine .of_forall (fun _ _ refuses => ?_) fun _ _ => trivial
      exact absurd refuses.1.2 (Nat.not_le.mpr greater)
    · intro _
      simp only [ends_bind, ends_ite, ends_ensure, ends_pure]
      refine ⟨fun _ => ⟨fun above => ?_, fun _ => trivial⟩, fun notFull => ?_⟩
      · refine .of_forall (fun _ _ refuses => ?_) fun _ _ => trivial
        exact absurd refuses.2.2 (Nat.not_le.mpr above)
      · exact .of_forall (fun _ _ refuses => notFull refuses.2.1) fun _ _ => trivial
  next notFull =>
    exact .of_forall (fun _ _ refuses => notFull refuses.1.1) fun _ _ => trivial

theorem decides_delegatorStateWith (sound : Sound config stakes) (delegationCount : Nat) :
    (delegatorStateWith config candidate who amount delegationCount).Ends stakes
      (fun _ after => after = stakes ∧ MayDelegate config stakes who candidate delegationCount)
      fun _ _ => ¬MayDelegate config stakes who candidate delegationCount := by
  simp only [delegatorStateWith, ends_bind, ends_read]
  cases stored : stakes.delegatorState.get who with
  | none =>
      simp only [ends_bind, ends_ensure, ends_pure]
      refine ⟨fun free => ⟨trivial, free, booked_of_none stored candidate, ?_⟩,
        fun exists' may => exists' may.noCandidate⟩
      rintro _ isStored
      rw [stored] at isStored
      cases isStored
  | some state =>
      have sorted := (sound.records who state stored).sorted
      simp only [ends_bind, ends_ensure, ends_pure]
      refine ⟨fun hint => ⟨fun room => ⟨fun added =>
        ⟨trivial, sound.apart who state stored, ?_, ?_⟩,
        fun notAdded may => notAdded ?_⟩, fun full may => full (may.room state stored).2⟩,
        fun low may => low (may.room state stored).1⟩
      · rw [booked_of_stored stored, Delegator.getBondAmount_eq_none]
        by_contra present
        have kept : state.delegations.insert (Bond.mk candidate amount) = _ :=
          OrderedSet.insert_of_present sorted (Option.isSome_iff_ne_none.mpr present)
        simp [Delegator.addDelegation, kept] at added
      · intro other isStored
        rw [stored] at isStored
        cases isStored
        exact ⟨hint, room⟩
      · have absent := may.fresh
        rw [booked_of_stored stored, Delegator.getBondAmount_eq_none] at absent
        obtain ⟨_, outcome, _⟩ := OrderedSet.insert_of_absent sorted
          (show lookup Bond.owner _ (Bond.mk candidate amount).owner = none from absent)
        simp [Delegator.addDelegation, outcome]

theorem decides_delegateInner (safe : Safe config stakes) (outside : who ≠ config.palletAccount)
    (candidateDelegationCount delegationCount : Nat) :
    Decides (delegateInner config candidate who amount candidateDelegationCount delegationCount)
      stakes (stakes.Accepts config round who
        (.delegate candidate amount candidateDelegationCount delegationCount)) := by
  simp only [Decides, delegateInner, reducibleBalance, Stakes.Accepts, ends_bind, ends_read,
    ends_ensure, ends_pure]
  cases stored : stakes.candidateInfo.get candidate with
  | none => simp
  | some info =>
  simp only [Option.map_some, Option.getD_some, Option.some.injEq, exists_eq_left']
  refine ⟨fun active => ⟨fun funded => ⟨fun minimum => ?_, fun small may => small may.2.2.1⟩,
    fun poor may => poor may.2.1⟩, fun inactive may => inactive may.1⟩
  refine (decides_delegatorStateWith safe.sound delegationCount).mono ?_
    fun _ _ refused may => refused may.2.2.2.1
  rintro state _ ⟨rfl, may⟩
  simp only [readCandidate, stored, ends_bind, ends_read, ends_require, Option.some.injEq,
    forall_eq', reduceCtorEq, false_implies, and_true]
  refine ⟨fun hint => ?_, fun low may => low may.2.2.2.2.1⟩
  obtain ⟨top, bottom, storedTop, storedBottom⟩ := safe.sound.exists_lists stored
  obtain ⟨listed, _⟩ := safe.agrees.listed stored storedTop storedBottom
  have pooled := safe.sound.pooled stored
  have adds : (info.addDelegation config candidate { owner := who, amount }).Ends _ _ _ :=
    ends_addDelegation storedTop storedBottom pooled safe.sound.records
  have refuses : (info.addDelegation config candidate { owner := who, amount }).Ends _ _ _ :=
    ends_addDelegation_refusal storedTop storedBottom pooled safe.sound.records
  refine Ends.mono ((adds.and refuses).and ends_addDelegation_refuses) ?_ ?_
  · rintro ⟨info', _, _⟩ after ⟨⟨⟨kicked, mid, kicks, relisted, _⟩, _⟩, notRefused⟩
    obtain ⟨_, _, _, rfl, _⟩ := relisted
    have held := funded.trans (kicks.le_balance safe.funded.plain.exact.credits outside)
    have takes := (safe.takes_iff stored).mpr notRefused
    simp only [ends_transferBtc, storeCandidate, storeDelegator, ends_write]
    exact ⟨fun _ => ⟨active, funded, minimum, may, hint, takes⟩, fun unpaid =>
      absurd (safe.funded.plain.accepts _ _ _ _ held) unpaid⟩
  · intro fault _ fails may
    rcases fails.1.2 listed safe.roomy with refused | ⟨bond, member, failed⟩
    · exact (safe.takes_iff stored).mp may.2.2.2.2.2 refused
    · exact safe.kick_cannot_fail stored storedTop storedBottom member failed

theorem booked_iff_of_stored {state : Delegator AccountId}
    (stored : stakes.delegatorState.get who = some state) :
    (∃ bonded, booked stakes.delegatorState who candidate = some bonded) ↔
      ∃ bonded, state.getBondAmount candidate = some bonded := by
  rw [booked_of_stored stored]

theorem decides_delegationScheduleRevoke (safe : Safe config stakes) (sequencer : AccountId) :
    Decides (delegationScheduleRevoke config round sequencer who) stakes
      (stakes.Accepts config round who (.scheduleRevokeDelegation sequencer)) := by
  simp only [Decides, delegationScheduleRevoke, readDelegator, pushRequest, storeRequests,
    storeDelegator, Stakes.Accepts, ends_bind, ends_read, ends_require, ends_ensure, ends_write,
    ends_pure]
  refine ⟨fun state stored => ?_, fun missing => by simp [booked_of_none missing]⟩
  rw [booked_iff_of_stored stored]
  refine ⟨fun idle => ⟨fun bonded recorded => ⟨fun _ => ⟨idle, bonded, recorded⟩, fun full => ?_⟩,
    fun absent => by simp [absent]⟩, fun pending may => pending may.1⟩
  have isBooked := booked_eq_some.mpr ⟨state, stored, recorded⟩
  exact absurd (safe.agrees.room safe.sound isBooked idle) full

/-- What a decrease leaves, of the delegation in the stored record. -/
theorem MayDecrease.of_stored {less : Nat} (may : MayDecrease config stakes who candidate less)
    {state : Delegator AccountId} (stored : stakes.delegatorState.get who = some state) :
    ∃ bonded, state.getBondAmount candidate = some bonded ∧ less < bonded ∧
      config.minDelegation ≤ bonded - less ∧
      less ≤ state.total - state.lessTotal - config.minDelegation := by
  obtain ⟨state', bonded, stored', stays⟩ := may.stays
  rw [stored] at stored'
  cases stored'
  exact ⟨bonded, stays⟩

theorem decides_delegationScheduleBondDecrease (safe : Safe config stakes) (less : Nat) :
    Decides (delegationScheduleBondDecrease config round candidate who less) stakes
      (stakes.Accepts config round who (.scheduleDelegatorBondLess candidate less)) := by
  simp only [Decides, delegationScheduleBondDecrease, readDelegator, pushRequest, storeRequests,
    storeDelegator, Stakes.Accepts, ends_bind, ends_read, ends_require, ends_ensure, ends_write,
    ends_pure]
  refine ⟨fun state stored => ⟨fun idle => ⟨fun bonded recorded => ?_, fun absent may => ?_⟩,
    fun pending may => pending may.idle⟩, fun missing may => ?_⟩
  · have stays : MayDecrease config stakes who candidate less → less < bonded ∧
        config.minDelegation ≤ bonded - less ∧
        less ≤ state.total - state.lessTotal - config.minDelegation := by
      intro may
      obtain ⟨_, recorded', stays⟩ := may.of_stored stored
      rw [recorded] at recorded'
      cases recorded'
      exact stays
    refine ⟨fun below => ⟨fun minimum => ⟨fun covered => ⟨fun _ => ?_, fun full => ?_⟩,
      fun uncovered may => uncovered (stays may).2.2⟩,
      fun small may => small (stays may).2.1⟩,
      fun tooMuch may => tooMuch (stays may).1⟩
    · exact ⟨idle, state, bonded, stored, recorded, below, minimum, covered⟩
    · have isBooked := booked_eq_some.mpr ⟨state, stored, recorded⟩
      exact absurd (safe.agrees.room safe.sound isBooked idle) full
  · obtain ⟨_, recorded, _⟩ := may.of_stored stored
    rw [absent] at recorded
    cases recorded
  · obtain ⟨state, _, stored, _⟩ := may.stays
    rw [missing] at stored
    cases stored

theorem decides_delegationBondMoreWithoutEvent (safe : Safe config stakes) (more : Nat) :
    Decides (do let _ ← delegationBondMoreWithoutEvent config who candidate more) stakes
      (stakes.Accepts config round who (.delegatorBondMore candidate more)) := by
  simp only [Decides, delegationBondMoreWithoutEvent, Delegator.increaseDelegation, readDelegator,
    readCandidate, storeCandidate, storeDelegator, Stakes.Accepts, ends_bind, ends_read,
    ends_require, ends_ensure, ends_transferBtc]
  refine ⟨fun state stored => ?_, fun missing => by simp [booked_of_none missing]⟩
  rw [booked_iff_of_stored stored]
  have consistent := safe.sound.records who state stored
  have isId := consistent.id
  subst isId
  refine ⟨fun unrevoked => ⟨fun bond taken => ?_, fun absent may => ?_⟩,
    fun revoked may => revoked may.1⟩
  · have recorded : state.getBondAmount candidate = some bond.amount := by
      rw [Delegator.getBondAmount, taken]
      rfl
    have isBooked := (booked_of_stored stored candidate).trans recorded
    refine ⟨fun paid => ⟨fun info storedInfo => ?_, fun missing => ?_⟩,
      fun unpaid may => unpaid (safe.funded.plain.accepts _ _ _ _ may.2.2)⟩
    · have accepted : delegationRequestRevokeExists (stakes.requests candidate) state.id = false ∧
          (∃ bonded, state.getBondAmount candidate = some bonded) ∧
            more ≤ stakes.btc.balance state.id :=
        ⟨unrevoked, ⟨bond.amount, recorded⟩, safe.funded.plain.exact.le_of_accepts paid⟩
      obtain ⟨top, bottom, storedTop, storedBottom⟩ := safe.sound.exists_lists storedInfo
      have lists : (info.increaseDelegation config candidate state.id bond.amount more).Ends
          { stakes with btc := stakes.btc.pay config state.id config.palletAccount more } _ _ :=
        ends_increaseDelegation storedTop storedBottom (by exact safe.sound.pooled storedInfo)
      refine lists.mono ?_ ?_
      · rintro ⟨info', inTop⟩ after ⟨top', bottom', pool, rfl, pooled, same, changes⟩
        simp only [ends_ite, ends_bind, ends_write, ends_pure]
        refine ⟨?_, fun _ => accepted⟩
        rintro ⟨active, _⟩
        refine Ends.mono (ends_updateActive pooled ?_) (fun _ _ _ => accepted) fun _ _ => False.elim
        rw [Function.update_self, activeTotal_of_active active]
        rfl
      · intro _ _ fails
        have agrees := safe.agrees
        have gone := fails (agrees.listed storedInfo storedTop storedBottom).1 safe.roomy
          (agrees.recorded storedInfo storedTop storedBottom isBooked)
        rw [agrees.lookup_table storedInfo storedTop storedBottom isBooked] at gone
        cases gone
    · obtain ⟨info, storedInfo⟩ := safe.agrees.exists_candidate isBooked
      rw [storedInfo] at missing
      cases missing
  · obtain ⟨bonded, recorded⟩ := may.2.1
    rw [Delegator.getBondAmount_eq_some.mp recorded] at absent
    cases absent

theorem decides_delegationExecuteScheduledRequest (safe : Safe config stakes)
    (delegator : AccountId) :
    Decides (delegationExecuteScheduledRequest config round candidate delegator) stakes
      (stakes.Accepts config round who (.executeDelegationRequest delegator candidate)) := by
  have settles : (delegationExecuteScheduledRequest config round candidate delegator).Ends stakes
      (fun _ after => Settles config (fun _ => True) (fun _ => True) stakes after) _ :=
    ends_delegationExecuteScheduledRequest safe.sound round candidate fun _ => trivial
  have due : (delegationExecuteScheduledRequest config round candidate delegator).Ends stakes
      (fun _ _ => RequestDue round stakes candidate delegator) fun _ _ => True := by
    simp only [delegationExecuteScheduledRequest, readDelegator, ends_bind, ends_read,
      ends_require, ends_ensure, implies_true, and_true]
    exact fun _ _ request found isDue => .of_forall (fun _ _ => ⟨request, found, isDue⟩)
      fun _ _ => trivial
  exact (due.and settles).mono (fun _ _ => And.left) fun _ _ fails => (fails.2 safe).2

theorem decides_delegationCancelRequest (safe : Safe config stakes) :
    Decides (delegationCancelRequest candidate who) stakes
      (stakes.Accepts config round who (.cancelDelegationRequest candidate)) := by
  simp only [Decides, delegationCancelRequest, readDelegator, cancelRequestWithState,
    storeRequests, storeDelegator, Stakes.Accepts, ends_bind, ends_read, ends_require, ends_write,
    Option.map_eq_some_iff, Option.map_eq_none_iff]
  refine ⟨fun state stored => ⟨?_, fun nothing => by simp [nothing]⟩, fun missing => ?_⟩
  · rintro _ ⟨request, found, rfl⟩
    exact ⟨request, found⟩
  · have none : findRequest (stakes.requests candidate) who = none :=
      safe.agrees.records.no_request missing candidate
    simp [none]

theorem decides_hotfixRemoveDelegationRequestsExitedCandidates (candidates : List AccountId) :
    Decides (hotfixRemoveDelegationRequestsExitedCandidates candidates) stakes
      (stakes.Accepts config round who
        (.hotfixRemoveDelegationRequestsExitedCandidates candidates)) := by
  simp only [Decides, hotfixRemoveDelegationRequestsExitedCandidates, Stakes.Accepts, ends_bind,
    ends_read, ends_ensure, ends_write]
  exact ⟨fun few => ⟨fun unused => ⟨few, unused⟩, fun used may => used may.2⟩,
    fun many may => many may.1⟩

end Delegators

/-! ## Extrinsics -/

section Dispatch

variable {state : State AccountId Native} {spec : ChainSpec AccountId Native}

/-- What an extrinsic of the staking pallet needs. -/
def State.Accepts (config : Config AccountId Native) (state : State AccountId Native) :
    Origin AccountId → Call AccountId → Prop
  | .root, .setSequencerCommission new => state.rounds.sequencerCommission ≠ new
  | .root, .setBlocksPerRound new =>
      config.minBlocksPerRound ≤ new ∧ state.rounds.round.length ≠ new ∧
        ¬Overflows config state.groups ∧ state.groups.toSelect < new
  | .root, .enableMarkingOffline _ => True
  | .root, .forceJoinCandidates account candidateCount =>
      MayJoin config state.stakes account candidateCount
  | .root, _ => False
  | .signed _, .notifyInactiveSequencer sequencer =>
      ReportsOpen config state ∧
        ∀ round, Checked config state round → state.rounds.inactiveIn sequencer round = true
  | .signed who, call => state.stakes.Accepts config state.rounds.round who call
  | .none, _ => False

/-- In a safe state a call on stakes is accepted or refused as its condition says. -/
theorem Safe.decides (safe : Safe config state.stakes) {who : AccountId}
    (outside : who ≠ config.palletAccount) {round : RoundInfo} {call : Call AccountId}
    {body : StakesM AccountId Native Unit} (isBody : stakesCall config round who call = some body) :
    Decides body state.stakes (state.stakes.Accepts config round who call) := by
  cases call with
  | chargeRewardAccount amount =>
      cases isBody
      simp only [Decides, chargeRewardAccount, Stakes.Accepts, ends_bind, ends_read, ends_require,
        ends_write]
      exact ⟨fun native paid => ⟨native, paid⟩, fun unpaid => by simp [unpaid]⟩
  | joinCandidates candidateCount =>
      cases isBody
      exact decides_joinCandidatesInner safe.sound candidateCount
  | scheduleLeaveCandidates candidateCount =>
      cases isBody
      exact decides_scheduleLeaveCandidates candidateCount
  | executeLeaveCandidates candidate candidateDelegationCount =>
      cases isBody
      exact decides_executeLeaveCandidates safe candidate candidateDelegationCount
  | cancelLeaveCandidates candidateCount =>
      cases isBody
      exact decides_cancelLeaveCandidates safe.sound candidateCount
  | goOffline =>
      cases isBody
      exact decides_goOfflineInner
  | goOnline =>
      cases isBody
      exact decides_goOnlineInner safe.sound
  | candidateBondMore more =>
      cases isBody
      exact decides_candidateBondMoreInner safe more
  | scheduleCandidateBondLess less =>
      cases isBody
      exact decides_scheduleCandidateBondLess less
  | executeCandidateBondLess candidate =>
      cases isBody
      exact decides_executeCandidateBondLessInner safe candidate
  | cancelCandidateBondLess =>
      cases isBody
      exact decides_cancelCandidateBondLess
  | delegate candidate amount candidateDelegationCount delegationCount =>
      cases isBody
      exact decides_delegateInner safe outside candidateDelegationCount delegationCount
  | scheduleRevokeDelegation sequencer =>
      cases isBody
      exact decides_delegationScheduleRevoke safe sequencer
  | delegatorBondMore candidate more =>
      cases isBody
      exact decides_delegationBondMoreWithoutEvent safe more
  | scheduleDelegatorBondLess candidate less =>
      cases isBody
      exact decides_delegationScheduleBondDecrease safe less
  | executeDelegationRequest delegator candidate =>
      cases isBody
      exact decides_delegationExecuteScheduledRequest safe delegator
  | cancelDelegationRequest candidate =>
      cases isBody
      exact decides_delegationCancelRequest safe
  | hotfixRemoveDelegationRequestsExitedCandidates candidates =>
      cases isBody
      exact decides_hotfixRemoveDelegationRequestsExitedCandidates candidates
  | setSequencerCommission | setBlocksPerRound | notifyInactiveSequencer | enableMarkingOffline
  | forceJoinCandidates | setGroupMetric | benchmarkTriggerGroup | registerProcessor =>
      cases isBody

theorem State.accepts_signed {who : AccountId} {call : Call AccountId}
    (isOnStakes : call.OnStakes) : state.Accepts config (.signed who) call =
      state.stakes.Accepts config state.rounds.round who call := by
  cases call <;> first | rfl | cases isOnStakes

theorem State.accepts_unsigned {origin : Origin AccountId} {call : Call AccountId}
    (isOnStakes : call.OnStakes) (unsigned : ∀ who, origin ≠ .signed who) :
    ¬state.Accepts config origin call := by
  cases origin with
  | signed who => exact absurd rfl (unsigned who)
  | none => exact id
  | root => cases call <;> first | exact id | cases isOnStakes

/-- The calls that root makes. -/
def Call.OfRoot : Call AccountId → Bool
  | .setSequencerCommission .. | .setBlocksPerRound .. | .enableMarkingOffline ..
  | .forceJoinCandidates .. => true
  | _ => false

theorem State.not_accepts_of_not_root {origin : Origin AccountId} {call : Call AccountId}
    (ofRoot : call.OfRoot = true) (notRoot : origin ≠ .root) :
    ¬state.Accepts config origin call := by
  cases origin with
  | root => exact absurd rfl notRoot
  | none => exact id
  | signed who => cases call <;> first | exact id | cases ofRoot

theorem exists_stakesCall {call : Call AccountId} (isOnStakes : call.OnStakes)
    (round : RoundInfo) (who : AccountId) :
    ∃ body, stakesCall config round who call = some body := by
  cases call <;> first | exact ⟨_, rfl⟩ | cases isOnStakes

theorem decides_notifyInactiveSequencer (sound : Sound config state.stakes) {who : AccountId}
    (sequencer : AccountId) :
    Decides (notifyInactiveSequencer config (.signed who) sequencer) state
      (state.Accepts config (.signed who) (.notifyInactiveSequencer sequencer)) := by
  simp only [Decides, notifyInactiveSequencer, ensureSigned, State.Accepts, ends_bind, ends_read,
    ends_ensure, ends_pure, ends_totalSelected, ends_u32Result_nat]
  refine ⟨fun enabled => ⟨fun fits => ⟨fun fitsTwice => ⟨fun crowded => ⟨fun late => ?_,
    fun early may => early may.1.late⟩, fun few may => few may.1.crowded.2.2⟩,
    fun overflows may => may.1.crowded.2.1 overflows⟩,
    fun overflows may => may.1.crowded.1 overflows⟩, fun disabled may => disabled may.1.enabled⟩
  simp only [counted_iff late]
  refine ⟨fun inactive => ?_, fun active may => active may.2⟩
  have goesOffline : (goOfflineInner sequencer).Ends state.stakes
      (fun _ after => Settles config (fun _ => True) (fun _ => True) state.stakes after) _ :=
    ends_goOfflineInner sound sequencer
  have accepted := And.intro (ReportsOpen.mk enabled ⟨fits, fitsTwice, crowded⟩ late) inactive
  simp only [onStakes, ends_discardError, ends_zoom]
  refine goesOffline.mono (fun _ _ _ => accepted) ?_
  rintro _ _ ⟨⟨reason, rfl⟩, _⟩
  exact ⟨fun _ _ => accepted, by rintro _ ⟨⟩⟩

/-- In a safe state the extrinsics of the staking pallet are accepted or refused as their
conditions say. -/
theorem Safe.decides_chainCall (safe : Safe config state.stakes) {origin : Origin AccountId}
    (outside : origin ≠ .signed config.palletAccount) {call : Call AccountId}
    (staking : call.ofGrouping = false) :
    Decides (chainCall config origin call) state (state.Accepts config origin call) := by
  by_cases isOnStakes : call.OnStakes
  · rw [chainCall_of_onStakes isOnStakes]
    simp only [Decides, ends_bind, ends_ensureSigned, ends_read]
    refine ⟨?_, fun unsigned => State.accepts_unsigned isOnStakes unsigned⟩
    rintro who rfl
    obtain ⟨body, isBody⟩ : ∃ body, stakesCall config state.rounds.round who call = some body :=
      exists_stakesCall isOnStakes _ who
    have decides := safe.decides (fun isPallet => outside (by rw [isPallet])) isBody
    rw [State.accepts_signed isOnStakes]
    simp only [isBody, onStakes, ends_zoom]
    exact decides
  cases call with
  | setSequencerCommission new =>
      simp only [Decides, chainCall, setSequencerCommission, writeRounds, ends_bind,
        ends_ensureRoot, ends_read, ends_ensure, ends_write]
      refine ⟨?_, State.not_accepts_of_not_root rfl⟩
      rintro rfl
      exact ⟨id, id⟩
  | setBlocksPerRound new =>
      simp only [Decides, chainCall, setBlocksPerRound, writeRounds, ends_bind, ends_ensureRoot,
        ends_read, ends_ensure, ends_totalSelected, ends_write]
      refine ⟨?_, State.not_accepts_of_not_root rfl⟩
      rintro rfl
      exact ⟨fun atLeast => ⟨fun differs => ⟨fun fits => ⟨fun above =>
        ⟨atLeast, differs, fits, above⟩, fun low may => low may.2.2.2⟩,
        fun overflows may => may.2.2.1 overflows⟩, fun same may => same may.2.1⟩,
        fun small may => small may.1⟩
  | notifyInactiveSequencer sequencer =>
      simp only [chainCall]
      cases origin with
      | signed who => exact decides_notifyInactiveSequencer safe.sound sequencer
      | root | none =>
          simp only [Decides, notifyInactiveSequencer, ensureSigned, ends_bind, ends_read,
            ends_ensure, ends_fail]
          exact ⟨fun _ => id, fun _ => id⟩
  | enableMarkingOffline value =>
      simp only [Decides, chainCall, writeRounds, ends_bind, ends_ensureRoot, ends_write]
      refine ⟨?_, State.not_accepts_of_not_root rfl⟩
      rintro rfl
      trivial
  | forceJoinCandidates account candidateCount =>
      simp only [Decides, chainCall, onStakes, ends_bind, ends_ensureRoot, ends_zoom]
      refine ⟨?_, State.not_accepts_of_not_root rfl⟩
      rintro rfl
      exact decides_joinCandidatesInner safe.sound candidateCount
  | setGroupMetric | benchmarkTriggerGroup | registerProcessor => cases staking
  | chargeRewardAccount | joinCandidates | scheduleLeaveCandidates | executeLeaveCandidates
  | cancelLeaveCandidates | goOffline | goOnline | candidateBondMore | scheduleCandidateBondLess
  | executeCandidateBondLess | cancelCandidateBondLess | delegate | scheduleRevokeDelegation
  | delegatorBondMore | scheduleDelegatorBondLess | executeDelegationRequest
  | cancelDelegationRequest | hotfixRemoveDelegationRequestsExitedCandidates =>
      exact absurd trivial isOnStakes

/-- An extrinsic of the staking pallet succeeds if and only if its condition holds, in every
reachable state. -/
theorem accepted_iff (minDelegation : 1 ≤ config.minDelegation) (roomy : Roomy config)
    (plain : config.asset.IsPlain)
    (outside : ∀ entry ∈ spec.delegations, entry.1 ≠ config.palletAccount)
    (reachable : Reachable config spec state) {origin : Origin AccountId} {call : Call AccountId}
    (staking : call.ofGrouping = false) (signer : origin ≠ .signed config.palletAccount) :
    (dispatch config origin call state).1 = .ok () ↔ state.Accepts config origin call := by
  have safe := reachable.safe minDelegation roomy plain outside
  refine Decides.ok_iff ?_
  rw [Decides, dispatch, ends_transactional]
  exact safe.decides_chainCall signer staking

end Dispatch

/-- A candidate with full lists takes a delegation above its lowest one, and no other. -/
theorem accepted_iff_full :
    ∃ state, Reachable plainRuntime fullGenesis state ∧
      state.Accepts plainRuntime (.signed 12) (.delegate 1 35 8 0) ∧
      ¬state.Accepts plainRuntime (.signed 12) (.delegate 1 30 8 0) := by
  obtain ⟨state, reachable, observed⟩ := Reached.exists_of_played
    (show (played plainRuntime fullGenesis [.nextBlock 0]).map
      (fun state => [35, 30].map fun amount =>
        (dispatch plainRuntime (.signed 12) (.delegate 1 amount 8 0) state).1.isOk) =
      some [true, false] by decide +kernel)
  simp only [List.map_cons, List.map_nil, List.cons.injEq, and_true] at observed
  have roomy : Roomy plainRuntime := ⟨by decide, by decide⟩
  refine ⟨state, reachable, ?_, fun accepts => ?_⟩
  · exact (accepted_iff (by decide) roomy plainRuntime_isPlain (by decide) reachable rfl
      (by decide)).mp (isOk_iff.mp observed.1)
  · have succeeds := (accepted_iff (by decide) roomy plainRuntime_isPlain (by decide) reachable rfl
      (by decide)).mpr accepts
    rw [isOk_iff.mpr succeeds] at observed
    cases observed.2

end Popsicle
