import Popsicle.Backing
import Popsicle.Delays
import Popsicle.Stores

/-!
# What a pending revoke earns

A delegation that is about to be revoked is counted as nothing in the snapshot of its
candidate.  Its share of the reward is then nothing as well, unless the whole snapshot
counts as nothing: a share of zero out of zero is everything.
-/

namespace Popsicle

open Foundation Exec Keyed

variable {AccountId Native : Type} [LinearOrder AccountId] {config : Config AccountId Native}
  {spec : ChainSpec AccountId Native} {before after state : State AccountId Native}

/-! ## Candidates and delegators -/

section Unmixed

variable {may : Withdrawal AccountId → Prop} {signs : AccountId → Prop}
  {stakes stakes' : Stakes AccountId Native} {candidate delegator account : AccountId}

/-- Nobody delegates to itself, and every delegator has at most one request towards a
candidate. -/
structure Unmixed (stakes : Stakes AccountId Native) : Prop where
  delegations : ∀ account, booked stakes.delegatorState account account = none
  distinct : ∀ candidate, Distinct ScheduledRequest.delegator (stakes.requests candidate)
  requests : ∀ candidate, ∀ request ∈ stakes.requests candidate, request.delegator ≠ candidate

theorem booked_dropped_none (config : Config AccountId Native) (leaving : Bool)
    {state : Delegator AccountId} {other : AccountId}
    (stored : stakes.delegatorState.get delegator = some state)
    (absent : booked stakes.delegatorState account other = none) :
    booked (dropped config candidate delegator state leaving stakes).delegatorState account other =
      none := by
  simp only [dropped, booked_put]
  split
  next equal =>
    subst equal
    split
    next => rfl
    next =>
      have rest := state.getBondAmount_without candidate other
      rw [booked_of_stored stored] at absent
      rw [absent, ite_self] at rest
      exact rest
  next => exact absent

theorem booked_returned_none {bonds : List (Bond AccountId)} {other : AccountId}
    (returns : Returns config candidate bonds stakes stakes')
    (absent : booked stakes.delegatorState account other = none) :
    booked stakes'.delegatorState account other = none := by
  induction returns with
  | done => exact absent
  | skip _ _ _ ih => exact ih absent
  | give stored _ _ _ ih => exact ih (booked_dropped_none _ _ stored absent)

theorem booked_kicked_none {kicked : Option (Bond AccountId)} {other : AccountId}
    (kicks : Kicks config candidate stakes kicked stakes')
    (absent : booked stakes.delegatorState account other = none) :
    booked stakes'.delegatorState account other = none := by
  cases kicked with
  | none =>
      rw [show stakes' = stakes from kicks]
      exact absent
  | some bond =>
      obtain ⟨state, stored, _, rfl⟩ := kicks
      exact booked_dropped_none _ _ stored absent

theorem Effect.booked_self (effect : Effect config may signs stakes stakes')
    (sound : Sound config stakes) (absent : booked stakes.delegatorState account account = none) :
    booked stakes'.delegatorState account account = none := by
  cases effect with
  | native | moves | clears | joins | amends | bondsMore | bondsLess => exact absent
  | exits candidate info top bottom returned native _ _ _ _ returns =>
      have gone : booked returned.delegatorState account account = none :=
        booked_returned_none returns absent
      exact gone
  | delegates delegator candidate amount state info info' top bottom top' bottom' kicked mid less
      pool stored _ _ _ fresh apart _ enrolls kicks =>
      dsimp only
      rw [booked_insert]
      split
      next equal =>
        subst equal
        have different : account ≠ candidate := by
          rintro rfl
          rw [apart] at stored
          cases stored
        rw [enrolls.getBondAmount (fun state stored => sound.records account state stored) fresh,
          if_neg different]
        exact absent
      next => exact booked_kicked_none kicks absent
  | revokes delegator candidate amount state request info info' top bottom top' bottom' pool
      storedDelegator =>
      exact booked_dropped_none config _ storedDelegator absent
  | decreases delegator candidate bonded less state request info info' top bottom top' bottom' pool
      storedDelegator _ _ _ recorded =>
      dsimp only
      have forgotten : (stakes.delegatorState.insert delegator (state.forget less)).get delegator =
          some (state.forget less) := StorageMap.get_insert_self _ _ _
      have amounts := booked_rebonded forgotten recorded (· - less) (state.total - less) account
        account
      have same : (state.forget less).delegations = state.delegations := rfl
      rw [StorageMap.insert_insert_self, booked_insert_same storedDelegator same] at amounts
      rw [amounts]
      split
      next both =>
        obtain ⟨rfl, rfl⟩ := both
        rw [booked_of_stored storedDelegator, recorded] at absent
        cases absent
      next => exact absent
  | increases delegator candidate bonded more state info info' top bottom top' bottom' pool
      storedDelegator _ recorded =>
      dsimp only
      rw [booked_rebonded storedDelegator recorded]
      split
      next both =>
        obtain ⟨rfl, rfl⟩ := both
        rw [booked_of_stored storedDelegator, recorded] at absent
        cases absent
      next => exact absent
  | schedules delegator candidate bonded state request storedDelegator =>
      have same : { state with
          lessTotal := state.lessTotal + request.action.amount }.delegations =
          state.delegations := rfl
      exact (booked_insert_same storedDelegator same account account).trans absent
  | cancels delegator candidate state request storedDelegator =>
      have same : (state.forget request.action.amount).delegations = state.delegations := rfl
      exact (booked_insert_same storedDelegator same account account).trans absent

theorem Effect.unmixed (effect : Effect config may signs stakes stakes')
    (sound : Sound config stakes) (unmixed : Unmixed stakes) : Unmixed stakes' := by
  have delegations : ∀ account, booked stakes'.delegatorState account account = none :=
    fun account => effect.booked_self sound (unmixed.delegations account)
  rcases effect.requests with shrunk | ⟨sequencer, request, _, isNew, recorded, requests⟩
  · exact ⟨delegations, fun candidate => (unmixed.distinct candidate).sublist (shrunk candidate),
      fun candidate request member =>
        unmixed.requests candidate request ((shrunk candidate).subset member)⟩
  · have different : request.delegator ≠ sequencer := by
      intro same
      rw [same, unmixed.delegations sequencer] at recorded
      cases recorded
    refine ⟨delegations, fun candidate => ?_, fun candidate other member => ?_⟩
    · rw [requests candidate]
      split
      next equal =>
        have appended : Distinct ScheduledRequest.delegator
            (request :: stakes.requests sequencer) := (unmixed.distinct sequencer).cons isNew
        exact appended.perm (List.perm_append_singleton _ _)
      next => exact unmixed.distinct candidate
    · rw [requests candidate] at member
      split at member
      next equal =>
        subst equal
        rcases List.mem_append.mp member with isOld | isLast
        · exact unmixed.requests candidate other isOld
        · rw [List.mem_singleton.mp isLast]
          exact different
      next => exact unmixed.requests candidate other member

end Unmixed

/-- Candidates and delegators are kept apart in every state a run reaches. -/
theorem Reached.unmixed {admits : State AccountId Native → Action AccountId Native → Prop}
    (reached : Reached config spec admits state) : Unmixed state.stakes := by
  have keeps : Keeps config (fun _ _ => True) (fun _ => True) Unmixed :=
    fun _ _ sound unmixed settles => settles.1.unmixed sound unmixed
  have initial : Unmixed spec.initial.stakes :=
    ⟨fun _ => rfl, fun _ => List.nodup_nil, fun _ request member => absurd member nofun⟩
  exact (reached.stakes (fun state action _ => allows_any state action) keeps initial
    (fun _ _ => trivial) fun _ _ => trivial).2

/-! ## Frozen snapshots -/

/-- What a round stores about the snapshot of a sequencer: it is the given one until the
sequencer is taken off, and it is what the sequencer is paid for. -/
structure Follows (snapshot : Option (SequencerSnapshot AccountId)) (sequencer : AccountId)
    (store : RoundStore AccountId) : Prop where
  staked : store.atStake.get sequencer = none ∨ store.atStake.get sequencer = snapshot
  ordered : ∀ order ∈ store.orders, order.sequencer = sequencer → some order.snapshot = snapshot

section Follows

variable {snapshot : Option (SequencerSnapshot AccountId)} {sequencer : AccountId}
  {store : RoundStore AccountId} {round : Nat}

theorem Follows.taken (follows : Follows snapshot sequencer store) {payoutInfo : DelayedPayout}
    {first : AccountId} {held : SequencerSnapshot AccountId}
    (stored : store.atStake.get first = some held) :
    Follows snapshot sequencer (store.taken round payoutInfo first held) := by
  constructor
  · by_cases equal : sequencer = first
    · subst equal
      exact .inl (StorageMap.get_remove_self _ _)
    · unfold RoundStore.taken
      rw [StorageMap.get_remove_of_ne _ equal]
      exact follows.staked
  · intro order member isSequencer
    rcases List.mem_append.mp member with isOld | isLast
    · exact follows.ordered order isOld isSequencer
    · obtain ⟨_, rfl⟩ := RoundStore.mem_order.mp isLast
      dsimp only at isSequencer ⊢
      rw [← stored, isSequencer]
      rcases follows.staked with off | same
      · rw [isSequencer, off] at stored
        cases stored
      · exact same

theorem Follows.paid (follows : Follows snapshot sequencer store) :
    Follows snapshot sequencer (store.paid config round) :=
  RoundStore.paid_kept follows (fun _ => ⟨follows.staked, follows.ordered⟩)
    fun _ _ _ _ _ _ stored => follows.taken stored

omit [LinearOrder AccountId] in
theorem Follows.ended (follows : Follows snapshot sequencer store) {commission : Perbill} :
    Follows snapshot sequencer (store.ended config commission) := by
  unfold RoundStore.ended
  split
  next => exact follows
  next => exact ⟨follows.staked, follows.ordered⟩

/-- A snapshot that has been taken is followed in all later states. -/
theorem Reached.follows {admits : State AccountId Native → Action AccountId Native → Prop}
    {later : State AccountId Native} (reachable : Reachable config spec state)
    (reaches : Reaches (step config) admits state later)
    (snapped : Snapped state.rounds.events round)
    (follows : Follows snapshot sequencer (state.rounds.store round)) :
    Follows snapshot sequencer (later.rounds.store round) := by
  have kept : ∀ before action after, Reachable config spec before →
      (Snapped before.rounds.events round ∧
        Follows snapshot sequencer (before.rounds.store round)) →
      admits before action → step config before action = some after →
      Snapped after.rounds.events round ∧
        Follows snapshot sequencer (after.rounds.store round) := by
    rintro before action after reached ⟨snapped, follows⟩ _ taken
    cases reached.advance taken round with
    | keeps clock store =>
        rw [clock.events, store]
        exact ⟨snapped, follows⟩
    | awards sequencer points isAward clock isCurrent store =>
        rw [clock.events, store]
        exact ⟨snapped, follows.staked, follows.ordered⟩
    | opens parentHash isBlock clock store settled =>
        obtain ⟨more, events⟩ := clock.events
        refine ⟨?_, ?_⟩
        · rw [events, List.append_assoc]
          exact snapped.imp_right (List.mem_append_left _)
        · rw [settled (.inr snapped)]
          exact Rounds.opened_kept follows (fun _ => follows.ended) fun _ => follows.paid
  exact (reachable.along reaches kept ⟨snapped, follows⟩).2.2

end Follows

/-! ## Payments to a delegator -/

omit [LinearOrder AccountId] in
/-- A delegator is paid for a delegation in the snapshot if its share of the amount due is
not nothing. -/
theorem paid_iff {payoutInfo : DelayedPayout} {totalPoints pts : Nat}
    {sequencer delegator : AccountId} {snapshot : SequencerSnapshot AccountId}
    (different : delegator ≠ sequencer) :
    (∃ payment ∈ orderedPayments payoutInfo totalPoints pts sequencer snapshot,
      payment.owner = delegator) ↔
      ∃ bond ∈ snapshot.delegations, bond.owner = delegator ∧
        (Perbill.fromRational bond.amount snapshot.total).mul
          (stakersDue payoutInfo totalPoints pts) ≠ 0 := by
  rw [orderedPayments_eq]
  generalize stakersDue payoutInfo totalPoints pts = due
  split
  next isEmpty =>
    rw [List.isEmpty_iff.mp isEmpty]
    simp [Ne.symm different]
  next =>
    constructor
    · rintro ⟨payment, member, rfl⟩
      rcases List.mem_cons.mp member with isFirst | isDue
      · rw [isFirst] at different
        exact absurd rfl different
      · obtain ⟨isPayment, isSome⟩ := List.mem_filter.mp isDue
        obtain ⟨bond, isBond, rfl⟩ := List.mem_map.mp isPayment
        exact ⟨bond, isBond, rfl, of_decide_eq_true isSome⟩
    · rintro ⟨bond, isBond, rfl, isSome⟩
      refine ⟨_, List.mem_cons_of_mem _ (List.mem_filter.mpr
        ⟨List.mem_map.mpr ⟨bond, isBond, rfl⟩, decide_eq_true isSome⟩), rfl⟩

/-- An amount out of the reward of a sequencer for a round has been paid to an account. -/
def PaidTo (rounds : Rounds AccountId) (round : Nat) (sequencer account : AccountId) : Prop :=
  ∃ order ∈ rounds.orders, order.round = round ∧ order.sequencer = sequencer ∧
    ∃ payment ∈ order.payments, payment.owner = account

/-- The delegator is not in the top list of the candidate, or the candidate has more stake
counted than the pending requests take off. -/
def CountsSome (stakes : Stakes AccountId Native) (candidate delegator : AccountId) : Prop :=
  ∀ info top, stakes.candidateInfo.get candidate = some info →
    stakes.topDelegations.get candidate = some top →
    (∀ bond ∈ top.delegations, bond.owner ≠ delegator) ∨
      (top.delegations.map (uncountedOf (stakes.requests candidate))).sum < info.totalCounted

theorem not_countsSome_iff {stakes : Stakes AccountId Native} {candidate delegator : AccountId}
    {info : CandidateMetadata} {top : Delegations AccountId}
    (stored : stakes.candidateInfo.get candidate = some info)
    (storedTop : stakes.topDelegations.get candidate = some top) :
    ¬CountsSome stakes candidate delegator ↔
      (∃ bond ∈ top.delegations, bond.owner = delegator) ∧
        (snapshotOf stakes candidate info top).total = 0 := by
  have isTotal : (snapshotOf stakes candidate info top).total = 0 ↔
      ¬(top.delegations.map (uncountedOf (stakes.requests candidate))).sum < info.totalCounted := by
    simp only [snapshotOf]
    omega
  rw [isTotal]
  constructor
  · intro notCounted
    unfold CountsSome at notCounted
    push Not at notCounted
    obtain ⟨info', top', stored', storedTop', isListed, atMost⟩ := notCounted
    rw [stored, Option.some.injEq] at stored'
    rw [storedTop, Option.some.injEq] at storedTop'
    subst stored' storedTop'
    exact ⟨isListed, Nat.not_lt.mpr atMost⟩
  · rintro ⟨⟨bond, member, isOwner⟩, nothing⟩ counted
    rcases counted info top stored storedTop with unlisted | some
    · exact unlisted bond member isOwner
    · exact nothing some

/-- A delegation that is to be revoked has a share if and only if nothing is counted. -/
theorem revoked_share {stakes : Stakes AccountId Native} {candidate delegator : AccountId}
    {request : ScheduledRequest AccountId} {amount due : Nat} (unmixed : Unmixed stakes)
    (found : findRequest (stakes.requests candidate) delegator = some request)
    (action : request.action = .revoke amount) (info : CandidateMetadata)
    (top : Delegations AccountId) :
    (∃ bond ∈ (snapshotOf stakes candidate info top).delegations, bond.owner = delegator ∧
      (Perbill.fromRational bond.amount (snapshotOf stakes candidate info top).total).mul due ≠ 0) ↔
      (∃ bond ∈ top.delegations, bond.owner = delegator) ∧
        (snapshotOf stakes candidate info top).total = 0 ∧ due ≠ 0 := by
  have revoked : ∀ bond, bond.owner = delegator →
      rewardableOf (stakes.requests candidate) bond = { bond with amount := 0 } := by
    rintro bond rfl
    rw [rewardableOf_eq (unmixed.distinct candidate), intended, found, Option.map_some, action]
  have owners : ∀ bond : Bond AccountId,
      (rewardableOf (stakes.requests candidate) bond).owner = bond.owner := by
    intro bond
    rw [rewardableOf_eq (unmixed.distinct candidate)]
  have share : ∀ total, (Perbill.fromRational 0 total).mul due ≠ 0 ↔ total = 0 ∧ due ≠ 0 := by
    intro total
    rw [Perbill.fromRational_zero]
    split
    next isZero => simp [isZero, Perbill.one_mul]
    next isSome => simp [isSome, Perbill.zero_mul]
  constructor
  · rintro ⟨_, member, isOwner, isSome⟩
    obtain ⟨bond, isBond, rfl⟩ := List.mem_map.mp member
    rw [owners] at isOwner
    rw [revoked bond isOwner, share] at isSome
    exact ⟨⟨bond, isBond, isOwner⟩, isSome⟩
  · rintro ⟨⟨bond, isBond, isOwner⟩, isSome⟩
    refine ⟨_, List.mem_map.mpr ⟨bond, isBond, rfl⟩, (owners bond).trans isOwner, ?_⟩
    rw [revoked bond isOwner, share]
    exact isSome

/-- What a selected candidate is paid for is what was at stake when the snapshot was taken. -/
theorem TakesSnapshot.ordered {parentHash : Nat} {later : State AccountId Native}
    {admits : State AccountId Native → Action AccountId Native → Prop}
    (takes : TakesSnapshot config before parentHash after)
    (reachable : Reachable config spec before)
    (reaches : Reaches (step config) admits after later) :
    ∀ order ∈ later.rounds.orders, order.round = before.openedRound.current + 1 →
      ∃ info top, before.stakes.candidateInfo.get order.sequencer = some info ∧
        before.stakes.topDelegations.get order.sequencer = some top ∧
        order.payments = orderedPayments order.payoutInfo order.totalPoints order.points
          order.sequencer (snapshotOf before.stakes order.sequencer info top) := by
  intro order member isRound
  have taken := step_nextBlock_iff.mpr takes.1
  have reachableAfter := reachable.next trivial taken
  have reachableLater := reachableAfter.later reaches
  obtain ⟨middle, sequencers, snapshots, opens, isOpened, notYet, _, _, _, snapshot, isAfter⟩ :=
    takes.selects reachable
  have entered : Staged (enterBlock before parentHash).rounds := reachable.staged
  have staged := entered.opens reachable.onTime_any.logged.mem_candidatesSelected.2 opens
  have snapped : Snapped after.rounds.events (before.openedRound.current + 1) := by
    rw [isAfter]
    exact .inr (by simp)
  have atStake : (after.rounds.atStake (before.openedRound.current + 1)).get order.sequencer =
      snapshots.get order.sequencer := by
    rw [isAfter]
    dsimp only
    rw [Function.update_self]
  have early : after.rounds.round.current ≤ before.openedRound.current + 1 := by
    rw [isAfter]
    dsimp only
    rw [isOpened]
    exact Nat.le_succ _
  have noOrders := ((reachableAfter.filed (before.openedRound.current + 1)).unpaid early).2
  have start : Follows (snapshots.get order.sequencer) order.sequencer
      (after.rounds.store (before.openedRound.current + 1)) := by
    refine ⟨.inr atStake, fun other isOther => ?_⟩
    rw [noOrders] at isOther
    cases isOther
  have isIn : order ∈ (later.rounds.store (before.openedRound.current + 1)).orders :=
    List.mem_filter.mpr ⟨member, decide_eq_true isRound⟩
  have isSnapshot := (reachableAfter.follows reaches snapped start).ordered order isIn rfl
  have payments := (reachableLater.filed _).proper.payments order isIn
  by_cases selected : order.sequencer ∈ sequencers
  · obtain ⟨info, top, stored, storedTop, isTaken⟩ := snapshot.1 order.sequencer selected
    rw [isTaken, Option.some.injEq] at isSnapshot
    rw [isSnapshot] at payments
    exact ⟨info, top, stored, storedTop, payments⟩
  · rw [snapshot.2 order.sequencer selected, staged.absent _ notYet] at isSnapshot
    cases isSnapshot

/-- A delegator whose revoke is pending when the snapshot for a round is taken gets nothing
out of the reward of its candidate for that round, if and only if the candidate has stake
counted besides what the pending requests take off, or the delegator is not in its top
list, or there is nothing to be shared. -/
theorem revoke_earns_nothing_iff {parentHash : Nat} {later : State AccountId Native}
    {candidate delegator : AccountId} {request : ScheduledRequest AccountId} {amount : Nat}
    (reachable : Reachable config spec state)
    (takes : TakesSnapshot config state parentHash after)
    (found : findRequest (state.stakes.requests candidate) delegator = some request)
    (action : request.action = .revoke amount)
    (reaches : Reaches (step config) (fun _ _ => True) after later) :
    ¬PaidTo later.rounds (state.openedRound.current + 1) candidate delegator ↔
      CountsSome state.stakes candidate delegator ∨
        ∀ order ∈ later.rounds.orders, order.round = state.openedRound.current + 1 →
          order.sequencer = candidate →
            stakersDue order.payoutInfo order.totalPoints order.points = 0 := by
  have unmixed := reachable.unmixed
  have different : delegator ≠ candidate := by
    have sender : request.delegator = delegator := key_of_lookup found
    rw [← sender]
    exact unmixed.requests candidate request (mem_of_lookup found)
  have ordered := takes.ordered reachable reaches
  have isPaid : ∀ order ∈ later.rounds.orders, order.round = state.openedRound.current + 1 →
      order.sequencer = candidate →
      ((∃ payment ∈ order.payments, payment.owner = delegator) ↔
        ¬CountsSome state.stakes candidate delegator ∧
          stakersDue order.payoutInfo order.totalPoints order.points ≠ 0) := by
    rintro order member isRound rfl
    obtain ⟨info, top, stored, storedTop, payments⟩ := ordered order member isRound
    rw [payments, paid_iff different, revoked_share unmixed found action info top,
      not_countsSome_iff stored storedTop, and_assoc]
  constructor
  · intro unpaid
    by_contra neither
    push Not at neither
    obtain ⟨notCounted, order, member, isRound, isSequencer, due⟩ := neither
    exact unpaid ⟨order, member, isRound, isSequencer,
      (isPaid order member isRound isSequencer).mpr ⟨notCounted, due⟩⟩
  · rintro excused ⟨order, member, isRound, isSequencer, paid⟩
    obtain ⟨notCounted, due⟩ := (isPaid order member isRound isSequencer).mp paid
    rcases excused with counted | nothing
    · exact notCounted counted
    · exact due (nothing order member isRound isSequencer)

/-- The only delegator of a candidate without a bond of its own schedules a revoke before
the snapshot for the second round, which is paid in the fourth: the request, whether a
snapshot is taken, and whether the delegator is paid. -/
def revokedPayout : Option (Option (Nat × DelegationAction) × List Nat × List Bool) :=
  (played mockRuntime (mockGenesis [1] [(3, 1, 10)]) [.nextBlock 0,
      .extrinsic (.signed 3) (.scheduleRevokeDelegation 1), .nextBlock 0]).bind fun state =>
    (step mockRuntime state (.nextBlock 0)).bind fun after =>
      (run (step mockRuntime) after ([.nextBlock 0, .nextBlock 0, .awardPoints 1 20] ++
          List.replicate 11 (.nextBlock 0))).map fun later =>
        ((findRequest (state.stakes.requests 1) 3).map fun request =>
            (request.delegator, request.action),
          [state.openedRound.current, state.groups.toSelect],
          [state.openedRound.shouldSnapshot (state.blockNumber + 1),
            state.stakes.candidatePool.entries.isEmpty,
            later.rounds.orders.any fun order => order.round = 2 && order.sequencer = 1 &&
              order.payments.any fun payment => payment.owner = 3])

theorem exists_revoke :
    ∃ state after later request, Reachable mockRuntime (mockGenesis [1] [(3, 1, 10)]) state ∧
      TakesSnapshot mockRuntime state 0 after ∧
      findRequest (state.stakes.requests 1) 3 = some request ∧ request.action = .revoke 10 ∧
      Reaches (step mockRuntime) (fun _ _ => True) after later ∧
      PaidTo later.rounds (state.openedRound.current + 1) 1 3 := by
  obtain ⟨state, isPlayed, shown⟩ := Option.bind_eq_some_iff.mp
    (show revokedPayout = some (some (3, .revoke 10), [1, 5], [true, false, true])
      by decide +kernel)
  obtain ⟨after, taken, shown⟩ := Option.bind_eq_some_iff.mp shown
  obtain ⟨later, continued, shown⟩ := Option.map_eq_some_iff.mp shown
  simp only [Prod.mk.injEq, List.cons.injEq, and_true] at shown
  obtain ⟨isRequest, ⟨current, asked⟩, isDue, pool, isPaid⟩ := shown
  obtain ⟨request, found, isRequest⟩ := Option.map_eq_some_iff.mp isRequest
  obtain ⟨_, action⟩ := Prod.mk.inj isRequest
  have takes : TakesSnapshot mockRuntime state 0 after := by
    refine ⟨step_nextBlock_iff.mp taken, isDue, ?_⟩
    rintro ⟨_, noPool | isZero⟩
    · simp [noPool] at pool
    · omega
  have admitted : ∀ state : State Nat (Nat → Nat), ∀ action ∈
      ([.nextBlock 0, .nextBlock 0, .awardPoints 1 20] ++ List.replicate 11 (.nextBlock 0) :
        List (Action Nat (Nat → Nat))), True := fun _ _ _ => trivial
  obtain ⟨order, member, isOrder⟩ := List.any_eq_true.mp isPaid
  simp only [Bool.and_eq_true, decide_eq_true_eq, List.any_eq_true] at isOrder
  obtain ⟨⟨isRound, isSequencer⟩, payment, isPayment, isOwner⟩ := isOrder
  refine ⟨state, after, later, request, Reached.of_played_any isPlayed, takes, found, action,
    Reaches.start.append (admitted_of_forall admitted after) continued, order, member, ?_,
    isSequencer, payment, isPayment, isOwner⟩
  rw [isRound, current]

/-- A pending revoke can earn something. -/
theorem revoke_earns :
    ¬∀ (state after later : State Nat (Nat → Nat)) (parentHash candidate delegator amount : Nat)
      (request : ScheduledRequest Nat), Reachable mockRuntime (mockGenesis [1] [(3, 1, 10)]) state →
      TakesSnapshot mockRuntime state parentHash after →
      findRequest (state.stakes.requests candidate) delegator = some request →
      request.action = .revoke amount →
      Reaches (step mockRuntime) (fun _ _ => True) after later →
      ¬PaidTo later.rounds (state.openedRound.current + 1) candidate delegator := by
  intro earnsNothing
  obtain ⟨state, after, later, request, reachable, takes, found, action, reaches, paid⟩ :=
    exists_revoke
  exact earnsNothing state after later 0 1 3 10 request reachable takes found action reaches paid

theorem revoke_earns_nothing_iff_alone :
    ∃ state after later, Reachable mockRuntime (mockGenesis [1] [(3, 1, 10)]) state ∧
      TakesSnapshot mockRuntime state 0 after ∧
      Reaches (step mockRuntime) (fun _ _ => True) after later ∧
      ¬CountsSome state.stakes 1 3 := by
  obtain ⟨state, after, later, request, reachable, takes, found, action, reaches, paid⟩ :=
    exists_revoke
  refine ⟨state, after, later, reachable, takes, reaches, fun counted => ?_⟩
  exact (revoke_earns_nothing_iff reachable takes found action reaches).mpr (.inl counted) paid

end Popsicle
