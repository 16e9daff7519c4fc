import Popsicle.Snapshots

/-!
# What is stored about one round

`RoundStore` collects what the chain keeps about a single round.  Once the snapshot for
a round has been taken, its store changes in three ways only: points are awarded while
the round is the current one, its payout is prepared when it ends, and one sequencer is
taken off it in each block while the payout is due.
-/

namespace Popsicle

open Foundation Exec Keyed

variable {AccountId Native : Type} [LinearOrder AccountId] {config : Config AccountId Native}
  {spec : ChainSpec AccountId Native} {before after state : State AccountId Native}

/-! ## The payments for one sequencer -/

section Shares

variable (payoutInfo : DelayedPayout) (totalPoints pts : Nat)

/-- The share of the points in the reward without the commission of the sequencers. -/
def stakingDue : Nat :=
  (Perbill.fromRational pts totalPoints).mul (payoutInfo.totalStakingReward -
    payoutInfo.sequencerCommission.mul payoutInfo.totalStakingReward)

/-- The share of the points in the commission of the sequencers. -/
def commissionDue : Nat :=
  (Perbill.fromRational pts totalPoints).mul
    (payoutInfo.sequencerCommission.mul payoutInfo.totalStakingReward)

/-- What is split among a sequencer with delegations and its delegators. -/
def stakersDue : Nat :=
  stakingDue payoutInfo totalPoints pts - commissionDue payoutInfo totalPoints pts

omit [LinearOrder AccountId] in
/-- The delegators that have a share in what is due are paid after the sequencer. -/
theorem orderedPayments_eq (sequencer : AccountId) (snapshot : SequencerSnapshot AccountId) :
    orderedPayments payoutInfo totalPoints pts sequencer snapshot =
      if snapshot.delegations.isEmpty then
        [{ owner := sequencer, amount := stakingDue payoutInfo totalPoints pts }]
      else
        { owner := sequencer
          amount := (Perbill.fromRational snapshot.bond snapshot.total).mul
            (stakersDue payoutInfo totalPoints pts) + commissionDue payoutInfo totalPoints pts } ::
          (snapshot.delegations.map fun bond => { bond with
            amount := (Perbill.fromRational bond.amount snapshot.total).mul
              (stakersDue payoutInfo totalPoints pts) }).filter fun due => due.amount ≠ 0 :=
  rfl

end Shares

/-! ## Stores -/

/-- Everything that is stored under one round, with the orders made for it. -/
structure RoundStore (AccountId : Type) where
  atStake : StorageMap AccountId (SequencerSnapshot AccountId)
  awardedPts : StorageMap AccountId Nat
  points : Nat
  payout : Option DelayedPayout
  orders : List (RewardOrder AccountId)

/-- What is stored about a round. -/
def Rounds.store (rounds : Rounds AccountId) (round : Nat) : RoundStore AccountId where
  atStake := rounds.atStake round
  awardedPts := rounds.awardedPts round
  points := rounds.points round
  payout := rounds.delayedPayouts.get round
  orders := rounds.orders.filter fun order => order.round = round

namespace RoundStore

/-- The points awarded to a sequencer. -/
def awarded (store : RoundStore AccountId) (sequencer : AccountId) : Nat :=
  (store.awardedPts.get sequencer).getD 0

/-- Points are awarded to a sequencer. -/
def award (sequencer : AccountId) (points : Nat) (store : RoundStore AccountId) :
    RoundStore AccountId :=
  { store with
    awardedPts := store.awardedPts.insert sequencer
      (min u32Max (store.awarded sequencer + points))
    points := min u32Max (store.points + points) }

/-- The round ends, and its payout is prepared if it has points. -/
def ended (config : Config AccountId Native) (commission : Perbill)
    (store : RoundStore AccountId) : RoundStore AccountId :=
  if store.points = 0 then store
  else { store with
    payout := some { totalStakingReward := config.roundReward, sequencerCommission := commission } }

/-- The payout is over. -/
def finished (store : RoundStore AccountId) : RoundStore AccountId :=
  { store with points := 0, payout := none }

/-- What is ordered when a sequencer is taken off the payout. -/
def order (round : Nat) (payoutInfo : DelayedPayout) (sequencer : AccountId)
    (snapshot : SequencerSnapshot AccountId) (store : RoundStore AccountId) :
    List (RewardOrder AccountId) :=
  if store.awarded sequencer = 0 then []
  else [{
    round, payoutInfo, sequencer, snapshot
    totalPoints := store.points
    points := store.awarded sequencer
    payments := orderedPayments payoutInfo store.points (store.awarded sequencer) sequencer
      snapshot }]

omit [LinearOrder AccountId] in
theorem mem_order {round : Nat} {payoutInfo : DelayedPayout} {sequencer : AccountId}
    {snapshot : SequencerSnapshot AccountId} {store : RoundStore AccountId}
    {order : RewardOrder AccountId} :
    order ∈ store.order round payoutInfo sequencer snapshot ↔
      store.awarded sequencer ≠ 0 ∧ order = {
        round, payoutInfo, sequencer, snapshot
        totalPoints := store.points
        points := store.awarded sequencer
        payments := orderedPayments payoutInfo store.points (store.awarded sequencer) sequencer
          snapshot } := by
  unfold RoundStore.order
  split <;> simp_all

/-- A sequencer is taken off the payout. -/
def taken (round : Nat) (payoutInfo : DelayedPayout) (sequencer : AccountId)
    (snapshot : SequencerSnapshot AccountId) (store : RoundStore AccountId) :
    RoundStore AccountId :=
  { store with
    atStake := store.atStake.remove sequencer
    awardedPts := store.awardedPts.remove sequencer
    orders := store.orders ++ store.order round payoutInfo sequencer snapshot }

/-- One block of a due payout. -/
def paid (config : Config AccountId Native) (round : Nat) (store : RoundStore AccountId) :
    RoundStore AccountId :=
  match store.payout with
  | none => store
  | some payoutInfo =>
      if store.points = 0 then store.finished
      else
        match config.keyOrder.first store.atStake.keys with
        | none => store.finished
        | some sequencer =>
            match store.atStake.get sequencer with
            | none => store.finished
            | some snapshot => store.taken round payoutInfo sequencer snapshot

theorem paid_kept {holds : RoundStore AccountId → Prop} {store : RoundStore AccountId}
    {round : Nat} (held : holds store)
    (finishes : store.payout.isSome = true → holds store.finished)
    (takes : ∀ payoutInfo sequencer snapshot, store.payout = some payoutInfo →
      store.points ≠ 0 → config.keyOrder.first store.atStake.keys = some sequencer →
      store.atStake.get sequencer = some snapshot →
      holds (store.taken round payoutInfo sequencer snapshot)) :
    holds (store.paid config round) := by
  unfold paid
  split
  next => exact held
  next payoutInfo isPayout =>
    have ended := finishes (isPayout ▸ rfl)
    split
    next => exact ended
    next counted =>
      split
      next => exact ended
      next sequencer isFirst =>
        split
        next => exact ended
        next snapshot stored =>
          exact takes payoutInfo sequencer snapshot isPayout counted isFirst stored

end RoundStore

/-! ## What a step does to a store -/

/-- The store of a round after block `n` has been opened. -/
def Rounds.opened (config : Config AccountId Native) (n : Nat) (rounds : Rounds AccountId)
    (round : Nat) : RoundStore AccountId :=
  if rounds.round.shouldUpdate n then
    if round = rounds.round.current then
      (rounds.store round).ended config rounds.sequencerCommission
    else rounds.store round
  else if round + config.rewardPaymentDelay = rounds.round.current then
    (rounds.store round).paid config round
  else rounds.store round

/-- Opening a block keeps what the end of a round and a block of its payout keep. -/
theorem Rounds.opened_kept {holds : RoundStore AccountId → Prop} {rounds : Rounds AccountId}
    {n round : Nat} (held : holds (rounds.store round))
    (ends : round = rounds.round.current →
      holds ((rounds.store round).ended config rounds.sequencerCommission))
    (pays : round + config.rewardPaymentDelay = rounds.round.current →
      holds ((rounds.store round).paid config round)) :
    holds (rounds.opened config n round) := by
  unfold Rounds.opened
  split
  next =>
    split
    next isCurrent => exact ends isCurrent
    next => exact held
  next =>
    split
    next isDue => exact pays isDue
    next => exact held

omit [LinearOrder AccountId] in
theorem Rounds.store_switched (n : Nat) (rounds : Rounds AccountId) (round : Nat) :
    (rounds.switched config n).store round =
      if round = rounds.round.current then
        (rounds.store round).ended config rounds.sequencerCommission
      else rounds.store round := by
  have isCurrent : (rounds.round.update n).current - 1 = rounds.round.current := by
    simp [RoundInfo.update]
  unfold Rounds.switched prepareStakingPayouts
  dsimp only
  rw [isCurrent]
  by_cases noPoints : rounds.points rounds.round.current = 0
  · rw [if_pos noPoints]
    split
    next equal =>
      subst equal
      simp [RoundStore.ended, Rounds.store, noPoints]
    next => rfl
  · rw [if_neg noPoints]
    split
    next equal =>
      subst equal
      simp [RoundStore.ended, Rounds.store, noPoints]
    next different => simp [Rounds.store, different]

/-- Taking a sequencer off the payout of a round changes the store of that round only. -/
theorem Rounds.store_taken (rounds : Rounds AccountId) (paidForRound : Nat)
    (payoutInfo : DelayedPayout) (sequencer : AccountId)
    (snapshot : SequencerSnapshot AccountId) (round : Nat) :
    (rounds.taken paidForRound payoutInfo sequencer snapshot).store round =
      if round = paidForRound then (rounds.store round).taken round payoutInfo sequencer snapshot
      else rounds.store round := by
  by_cases equal : round = paidForRound
  · subst equal
    rw [if_pos rfl]
    simp only [Rounds.taken, Rounds.store, Function.update_self, List.filter_append,
      RoundStore.taken, RoundStore.order, Rounds.awarded, RoundStore.awarded]
    congr 2
    by_cases noPoints : ((rounds.awardedPts round).get sequencer).getD 0 = 0
    · simp [noPoints]
    · simp [noPoints]
  · rw [if_neg equal]
    simp only [Rounds.taken, Rounds.store, Function.update_of_ne equal, List.filter_append]
    congr 1
    by_cases noPoints : rounds.awarded paidForRound sequencer = 0
    · simp [noPoints]
    · simp [noPoints, Ne.symm equal]

/-- A block of payouts changes the store of the round that is due. -/
theorem Payout.store (payout : Payout config before after) (round : Nat) :
    after.rounds.store round =
      if round + config.rewardPaymentDelay = before.rounds.round.current then
        (before.rounds.store round).paid config round
      else before.rounds.store round := by
  cases payout with
  | nothing noneDue =>
      split
      next isDue =>
        have noPayout : (before.rounds.store round).payout = none := by
          rw [Option.eq_none_iff_forall_ne_some]
          exact fun payoutInfo stored => noneDue round payoutInfo ⟨isDue, stored⟩
        simp only [RoundStore.paid, noPayout]
      next => rfl
  | finishes paidForRound payoutInfo due finished =>
      by_cases equal : round = paidForRound
      · subst equal
        have stored : (before.rounds.store round).payout = some payoutInfo := due.2
        rw [if_pos due.1]
        have finishes : (before.rounds.store round).paid config round =
            (before.rounds.store round).finished := by
          simp only [RoundStore.paid, stored]
          rcases finished with noPoints | noKeys
          · exact if_pos noPoints
          · split
            next => rfl
            next =>
              split
              next => rfl
              next sequencer isFirst =>
                have isKey := config.keyOrder.first_mem _ _ isFirst
                change sequencer ∈ (before.rounds.atStake round).keys at isKey
                rw [noKeys] at isKey
                cases isKey
        rw [finishes]
        simp [RoundStore.finished, Rounds.store]
      · have notDue : ¬round + config.rewardPaymentDelay = before.rounds.round.current := by
          have isDue := due.1
          omega
        rw [if_neg notDue]
        simp [Rounds.store, equal]
  | takes paidForRound payoutInfo sequencer snapshot native due counted isFirst isStored =>
      change (before.rounds.taken paidForRound payoutInfo sequencer snapshot).store round = _
      rw [Rounds.store_taken]
      by_cases equal : round = paidForRound
      · subst equal
        have stored : (before.rounds.store round).payout = some payoutInfo := due.2
        have hasPoints : (before.rounds.store round).points ≠ 0 := counted
        have first : config.keyOrder.first (before.rounds.store round).atStake.keys =
            some sequencer := isFirst
        have held : (before.rounds.store round).atStake.get sequencer = some snapshot := isStored
        rw [if_pos rfl, if_pos due.1]
        simp only [RoundStore.paid, stored, if_neg hasPoints, first, held]
      · have notDue : ¬round + config.rewardPaymentDelay = before.rounds.round.current := by
          have isDue := due.1
          omega
        rw [if_neg equal, if_neg notDue]

theorem Opens.store {n : Nat} (opens : Opens config n before after) (round : Nat) :
    after.rounds.store round = before.rounds.opened config n round := by
  unfold Rounds.opened
  cases opens with
  | switches due =>
      rw [if_pos due]
      exact Rounds.store_switched n before.rounds round
  | pays waits payout =>
      have isEarly : ¬before.rounds.round.shouldUpdate n = true := by simp [waits]
      rw [if_neg isEarly]
      exact payout.store round

/-- A block does nothing else to the store of a round, but that the snapshot for it may
be taken. -/
theorem Block.store_frame {n : Nat} (block : Block config n before after) (round : Nat) :
    after.rounds.store round =
      { before.rounds.opened config n round with atStake := after.rounds.atStake round } := by
  cases block with
  | plain opens noSnapshot =>
      rw [← opens.store round]
      rfl
  | snapshots rounds opens snapshot selection =>
      obtain ⟨snapshots, selectedCandidates, rfl⟩ := selection.frame
      rw [← opens.store round]
      rfl

/-- The snapshot for a round is no longer to be taken. -/
def Settled (rounds : Rounds AccountId) (round : Nat) : Prop :=
  round ≤ rounds.round.current ∨ Snapped rounds.events round

/-- A block leaves a round in which no snapshot is to be taken as it has been opened. -/
theorem Block.store {parentHash point : Nat}
    (block : Block config (before.blockNumber + 1) (enterBlock before parentHash) after)
    (onTime : OnTime point (fun _ _ => True) before) {round : Nat}
    (settled : Settled before.rounds round) :
    after.rounds.store round = before.rounds.opened config (before.blockNumber + 1) round := by
  cases block with
  | plain opens noSnapshot => exact opens.store round
  | @snapshots middle rounds opens snapshot selection =>
      have opened := onTime.opens opens fun _ => trivial
      obtain ⟨isRound, _, sameEvents, _⟩ := opens.reads
      have different : round ≠ middle.rounds.round.current + 1 := by
        rintro rfl
        refine opened.notYet snapshot ?_
        rcases settled with late | isFirst | isSelected
        · have grows : before.rounds.round.current ≤ before.openedRound.current := by
            unfold State.openedRound
            split
            next => exact Nat.le_succ _
            next => exact le_refl _
          rw [isRound] at late
          omega
        · exact .inl isFirst
        · exact .inr ((sameEvents _).mpr isSelected)
      obtain ⟨snapshots, selectedCandidates, rfl⟩ := selection.frame
      refine Eq.trans ?_ (opens.store round)
      simp only [Rounds.store, Function.update_of_ne different]

/-- Neither the round nor the block has moved on. -/
structure SameClock (before after : State AccountId Native) : Prop where
  current : after.rounds.round.current = before.rounds.round.current
  first : after.rounds.round.first = before.rounds.round.first
  number : after.blockNumber = before.blockNumber
  events : after.rounds.events = before.rounds.events

/-- The next block has been opened. -/
structure NextBlock (before after : State AccountId Native) : Prop where
  isRound : after.rounds.round = before.openedRound
  number : after.blockNumber = before.blockNumber + 1
  events : ∃ more, after.rounds.events = before.rounds.events ++
    (if before.rounds.round.shouldUpdate (before.blockNumber + 1) then
      [.newRound (before.blockNumber + 1) (before.rounds.round.current + 1)] else []) ++ more

/-- What a step does to the store of a round and to the clock. -/
inductive Advance (config : Config AccountId Native) (before : State AccountId Native)
    (action : Action AccountId Native) (after : State AccountId Native) (round : Nat) : Prop where
  | keeps (clock : SameClock before after)
      (store : after.rounds.store round = before.rounds.store round)
  | awards (sequencer : AccountId) (points : Nat)
      (isAward : action = .awardPoints sequencer points) (clock : SameClock before after)
      (isCurrent : round = before.rounds.round.current)
      (store : after.rounds.store round = (before.rounds.store round).award sequencer points)
  | opens (parentHash : Nat) (isBlock : action = .nextBlock parentHash)
      (clock : NextBlock before after)
      (store : after.rounds.store round =
        { before.rounds.opened config (before.blockNumber + 1) round with
          atStake := after.rounds.atStake round })
      (settled : Settled before.rounds round → after.rounds.store round =
        before.rounds.opened config (before.blockNumber + 1) round)

theorem Rounds.store_awardPoints (sequencer : AccountId) (points : Nat)
    (rounds : Rounds AccountId) (round : Nat) :
    (awardPointsToSequencer sequencer points rounds).store round =
      if round = rounds.round.current then (rounds.store round).award sequencer points
      else rounds.store round := by
  by_cases equal : round = rounds.round.current
  · subst equal
    rw [if_pos rfl]
    simp only [awardPointsToSequencer, Rounds.store, Function.update_self]
    rfl
  · rw [if_neg equal]
    simp only [awardPointsToSequencer, Rounds.store, Function.update_of_ne equal]

theorem Opens.events {n : Nat} (opens : Opens config n before after) :
    after.rounds.events = before.rounds.events ++
      if before.rounds.round.shouldUpdate n then
        [.newRound n (before.rounds.round.current + 1)] else [] := by
  cases opens with
  | switches due =>
      obtain ⟨_, frame⟩ := Rounds.switched_frame config n before.rounds
      rw [frame, if_pos due]
  | pays waits payout =>
      rw [payout.sameLog.2.1, if_neg (by simp [waits]), List.append_nil]

theorem Block.clock {parentHash : Nat}
    (block : Block config (before.blockNumber + 1) (enterBlock before parentHash) after) :
    NextBlock before after := by
  cases block with
  | plain opens noSnapshot =>
      obtain ⟨native, rounds, frame⟩ := opens.frame
      refine ⟨opens.reads.1, ?_, [], ?_⟩
      · rw [frame]
        rfl
      · rw [List.append_nil]
        exact opens.events
  | snapshots rounds opens snapshot selection =>
      obtain ⟨_, _, rfl⟩ := selection.frame
      obtain ⟨native, rounds, frame⟩ := opens.frame
      refine ⟨opens.reads.1, ?_, _, congrArg (· ++ _) opens.events⟩
      dsimp only
      rw [frame]
      rfl

theorem Transition.advance {may : Withdrawal AccountId → Prop} {signs : AccountId → Prop}
    {point : Nat} {action : Action AccountId Native}
    (onTime : OnTime point (fun _ _ => True) before)
    (transition : Transition config may signs before action after) (round : Nat) :
    Advance config before action after round := by
  cases transition with
  | update update => cases update <;> exact .keeps ⟨rfl, rfl, rfl, rfl⟩ rfl
  | awards sequencer points =>
      have store := Rounds.store_awardPoints sequencer points before.rounds round
      by_cases isCurrent : round = before.rounds.round.current
      · rw [if_pos isCurrent] at store
        exact .awards sequencer points rfl ⟨rfl, rfl, rfl, rfl⟩ isCurrent store
      · rw [if_neg isCurrent] at store
        exact .keeps ⟨rfl, rfl, rfl, rfl⟩ store
  | block parentHash block =>
      exact .opens parentHash rfl block.clock (block.store_frame round)
        fun settled => block.store onTime settled

/-- What a step of a run does to the store of a round. -/
theorem Reached.advance {admits : State AccountId Native → Action AccountId Native → Prop}
    (reached : Reached config spec admits before) {action : Action AccountId Native}
    (taken : step config before action = some after) (round : Nat) :
    Advance config before action after round :=
  (reached.transition taken).advance reached.onTime_any round

/-! ## The orders for a round -/

/-- No sequencer is paid twice, or stays in the snapshot when it is paid, and the payments
are those for its points and snapshot. -/
structure RoundStore.Proper (store : RoundStore AccountId) : Prop where
  distinct : Distinct RewardOrder.sequencer store.orders
  takenOff : ∀ order ∈ store.orders, store.atStake.get order.sequencer = none
  payments : ∀ order ∈ store.orders, order.payments =
    orderedPayments order.payoutInfo order.totalPoints order.points order.sequencer order.snapshot

namespace RoundStore

variable {store : RoundStore AccountId} {round : Nat}

omit [LinearOrder AccountId] in
theorem Proper.of_nil (noOrders : store.orders = []) : store.Proper := by
  constructor <;> simp [noOrders, Distinct]

theorem Proper.taken (proper : store.Proper) {payoutInfo : DelayedPayout} {sequencer : AccountId}
    {snapshot : SequencerSnapshot AccountId}
    (stored : store.atStake.get sequencer = some snapshot) :
    (store.taken round payoutInfo sequencer snapshot).Proper := by
  have fresh : ∀ order ∈ store.orders, order.sequencer ≠ sequencer := by
    rintro order member rfl
    rw [proper.takenOff order member] at stored
    cases stored
  have isNew : ∀ order ∈ store.order round payoutInfo sequencer snapshot,
      order.sequencer = sequencer ∧ order.payments = orderedPayments order.payoutInfo
        order.totalPoints order.points order.sequencer order.snapshot := by
    intro order member
    obtain ⟨_, rfl⟩ := mem_order.mp member
    exact ⟨rfl, rfl⟩
  constructor
  · unfold Distinct
    dsimp only [RoundStore.taken]
    rw [List.map_append]
    refine List.Nodup.append proper.distinct ?_ ?_
    · unfold RoundStore.order
      split <;> simp
    · intro account isOld isLast
      obtain ⟨order, member, rfl⟩ := List.mem_map.mp isOld
      obtain ⟨last, isIn, same⟩ := List.mem_map.mp isLast
      exact fresh order member (same.symm.trans (isNew last isIn).1)
  · intro order member
    dsimp only [RoundStore.taken]
    rcases List.mem_append.mp member with isOld | isLast
    · rw [StorageMap.get_remove_of_ne _ (fresh order isOld)]
      exact proper.takenOff order isOld
    · rw [(isNew order isLast).1]
      exact StorageMap.get_remove_self _ _
  · intro order member
    rcases List.mem_append.mp member with isOld | isLast
    · exact proper.payments order isOld
    · exact (isNew order isLast).2

theorem Proper.paid (proper : store.Proper) : (store.paid config round).Proper :=
  paid_kept proper (fun _ => ⟨proper.distinct, proper.takenOff, proper.payments⟩)
    fun _ _ _ _ _ _ stored => proper.taken stored

omit [LinearOrder AccountId] in
theorem Proper.ended (proper : store.Proper) {commission : Perbill} :
    (store.ended config commission).Proper := by
  unfold RoundStore.ended
  split
  next => exact proper
  next => exact ⟨proper.distinct, proper.takenOff, proper.payments⟩

end RoundStore

/-- No points are awarded for a round before it begins, nothing is paid for it before it is
over, and then what is paid is proper. -/
structure Filed (rounds : Rounds AccountId) (round : Nat) : Prop where
  unearned : rounds.round.current < round →
    (rounds.store round).awardedPts = .empty ∧ (rounds.store round).points = 0
  unpaid : rounds.round.current ≤ round →
    (rounds.store round).payout = none ∧ (rounds.store round).orders = []
  proper : (rounds.store round).Proper

theorem Filed.opened {rounds : Rounds AccountId} {round : Nat} (filed : Filed rounds round)
    (n : Nat) : (rounds.opened config n round).Proper :=
  Rounds.opened_kept filed.proper (fun _ => filed.proper.ended) fun _ => filed.proper.paid

/-- Opening a block leaves rounds that are not over alone, but that the current one ends. -/
theorem Filed.opened_of_late {rounds : Rounds AccountId} {round : Nat} (filed : Filed rounds round)
    (n : Nat) (late : rounds.round.current ≤ round)
    (notNow : round = rounds.round.current → rounds.round.shouldUpdate n = false) :
    rounds.opened config n round = rounds.store round := by
  unfold Rounds.opened
  split
  next due =>
    refine if_neg fun isCurrent => ?_
    rw [notNow isCurrent] at due
    cases due
  next =>
    split
    next =>
      unfold RoundStore.paid
      rw [(filed.unpaid late).1]
    next => rfl

omit [LinearOrder AccountId] in
theorem State.openedRound_current (state : State AccountId Native) :
    state.openedRound.current = state.rounds.round.current +
      if state.rounds.round.shouldUpdate (state.blockNumber + 1) then 1 else 0 := by
  unfold State.openedRound
  split <;> rfl

/-- A step keeps rounds filed. -/
theorem Filed.advance {round : Nat} {action : Action AccountId Native}
    (filed : Filed before.rounds round) (advance : Advance config before action after round) :
    Filed after.rounds round := by
  cases advance with
  | keeps clock store =>
      refine ⟨?_, ?_, ?_⟩
      · rw [clock.current, store]
        exact filed.unearned
      · rw [clock.current, store]
        exact filed.unpaid
      · rw [store]
        exact filed.proper
  | awards sequencer points isAward clock isCurrent store =>
      refine ⟨fun late => ?_, ?_, ?_⟩
      · rw [clock.current, isCurrent] at late
        exact absurd late (lt_irrefl _)
      · rw [clock.current, store]
        exact filed.unpaid
      · rw [store]
        exact ⟨filed.proper.distinct, filed.proper.takenOff, filed.proper.payments⟩
  | opens parentHash isBlock clock store settled =>
      have isCurrent := before.openedRound_current
      rw [← clock.isRound] at isCurrent
      have unchanged : after.rounds.round.current ≤ round →
          after.rounds.store round =
            { before.rounds.store round with atStake := after.rounds.atStake round } := by
        intro late
        rw [store, filed.opened_of_late]
        · omega
        · intro isOld
          rw [Bool.eq_false_iff]
          intro due
          rw [if_pos due] at isCurrent
          omega
      refine ⟨fun late => ?_, fun late => ?_, ?_⟩
      · rw [unchanged late.le]
        exact filed.unearned (by omega)
      · rw [unchanged late]
        exact filed.unpaid (by omega)
      · by_cases past : round ≤ before.rounds.round.current
        · rw [settled (.inl past)]
          exact filed.opened _
        · refine .of_nil ?_
          rw [store, filed.opened_of_late _ (by omega) fun same => absurd same.le past]
          exact (filed.unpaid (by omega)).2

theorem Started.filed {stakes : Stakes AccountId Native} {start : State AccountId Native}
    (started : Started config spec stakes start) (round : Nat) : Filed start.rounds round := by
  obtain ⟨rounds, selection, rfl⟩ := started
  obtain ⟨snapshots, selectedCandidates, rfl⟩ := selection.frame
  exact ⟨fun _ => ⟨rfl, rfl⟩, fun _ => ⟨rfl, rfl⟩, .of_nil rfl⟩

theorem Reached.filed {admits : State AccountId Native → Action AccountId Native → Prop}
    (reached : Reached config spec admits state) (round : Nat) : Filed state.rounds round := by
  refine reached.chain (fun state action _ => allows_any state action)
    (fun _ _ started => started.filed round) ?_
  intro before action after reachedBefore filed _ transition
  exact filed.advance (transition.advance reachedBefore.onTime_any round)

/-! ## Rounds that are over -/

theorem Advance.clock {round : Nat} {action : Action AccountId Native}
    (advance : Advance config before action after round) :
    SameClock before after ∨ NextBlock before after := by
  cases advance with
  | keeps clock => exact .inl clock
  | awards sequencer points isAward clock => exact .inl clock
  | opens parentHash isBlock clock => exact .inr clock

theorem Advance.past {round : Nat} {action : Action AccountId Native}
    (advance : Advance config before action after round)
    (past : round < before.rounds.round.current) :
    round < after.rounds.round.current ∧
      (after.rounds.store round = before.rounds.store round ∨
        round + config.rewardPaymentDelay = before.rounds.round.current ∧
          after.rounds.store round = (before.rounds.store round).paid config round) := by
  cases advance with
  | keeps clock store =>
      rw [clock.current]
      exact ⟨past, .inl store⟩
  | awards sequencer points isAward clock isCurrent => exact absurd isCurrent past.ne
  | opens parentHash isBlock clock store settled =>
      rw [clock.isRound, before.openedRound_current]
      refine ⟨by omega, ?_⟩
      rw [settled (.inl past.le)]
      unfold Rounds.opened
      split
      next => exact .inl (if_neg past.ne)
      next =>
        split
        next isDue => exact .inr ⟨isDue, rfl⟩
        next => exact .inl rfl

section Later

variable {later : State AccountId Native} {round : Nat}
  {admits : State AccountId Native → Action AccountId Native → Prop}

/-- What is stored about a round that is over is what some blocks of its payout leave. -/
theorem Reached.past (reachable : Reachable config spec state)
    (reaches : Reaches (step config) admits state later)
    (past : round < state.rounds.round.current) :
    Reachable config spec later ∧ round < later.rounds.round.current ∧
      ∃ blocks, later.rounds.store round =
        (RoundStore.paid config round)^[blocks] (state.rounds.store round) := by
  have kept : ∀ before action after, Reachable config spec before →
      (round < before.rounds.round.current ∧ ∃ blocks, before.rounds.store round =
        (RoundStore.paid config round)^[blocks] (state.rounds.store round)) →
      admits before action → step config before action = some after →
      round < after.rounds.round.current ∧ ∃ blocks, after.rounds.store round =
        (RoundStore.paid config round)^[blocks] (state.rounds.store round) := by
    rintro before action after reached ⟨pastBefore, blocks, isStore⟩ _ taken
    obtain ⟨pastAfter, same | ⟨_, paid⟩⟩ := (reached.advance taken round).past pastBefore
    · exact ⟨pastAfter, blocks, same.trans isStore⟩
    · refine ⟨pastAfter, blocks + 1, ?_⟩
      rw [Function.iterate_succ_apply', paid, isStore]
  exact reachable.along reaches kept ⟨past, 0, rfl⟩

/-- Until its payout is due, nothing changes what is stored about a round that is over. -/
theorem Reached.untouched (reachable : Reachable config spec state)
    (reaches : Reaches (step config) admits state later)
    (past : round < state.rounds.round.current)
    (early : later.rounds.round.current < round + config.rewardPaymentDelay) :
    later.rounds.store round = state.rounds.store round := by
  have kept : ∀ before action after, Reachable config spec before →
      (round < before.rounds.round.current ∧
        (before.rounds.round.current < round + config.rewardPaymentDelay →
          before.rounds.store round = state.rounds.store round)) →
      admits before action → step config before action = some after →
      round < after.rounds.round.current ∧
        (after.rounds.round.current < round + config.rewardPaymentDelay →
          after.rounds.store round = state.rounds.store round) := by
    rintro before action after reached ⟨pastBefore, unchanged⟩ _ taken
    have advance := reached.advance taken round
    have later : before.rounds.round.current ≤ after.rounds.round.current := by
      rcases advance.clock with clock | clock
      · exact clock.current.ge
      · rw [clock.isRound, before.openedRound_current]
        exact Nat.le_add_right _ _
    obtain ⟨pastAfter, outcome⟩ := advance.past pastBefore
    refine ⟨pastAfter, fun early => ?_⟩
    rcases outcome with same | ⟨isDue, _⟩
    · exact same.trans (unchanged (later.trans_lt early))
    · omega
  exact (reachable.along reaches kept ⟨past, fun _ => rfl⟩).2.2 early

end Later

/-- A round has just ended. -/
structure JustEnded (round : Nat) (state : State AccountId Native) : Prop where
  next : state.rounds.round.current = round + 1
  now : state.rounds.round.first = state.blockNumber

/-- A run in which a round has just ended continues to a later state. -/
structure EndedBefore (config : Config AccountId Native) (spec : ChainSpec AccountId Native)
    (round : Nat) (ended later : State AccountId Native) : Prop where
  reachable : Reachable config spec ended
  justEnded : JustEnded round ended
  reaches : Reaches (step config) (fun _ _ => True) ended later

/-- Every round before the current one has ended at some time. -/
theorem Reached.exists_ended {round : Nat} (reachable : Reachable config spec state)
    (began : 1 ≤ round) (past : round < state.rounds.round.current) :
    ∃ ended, EndedBefore config spec round ended state := by
  have kept : ∀ before action after, Reachable config spec before →
      (∀ round, 1 ≤ round → round < before.rounds.round.current →
        ∃ ended, EndedBefore config spec round ended before) →
      True → step config before action = some after →
      ∀ round, 1 ≤ round → round < after.rounds.round.current →
        ∃ ended, EndedBefore config spec round ended after := by
    intro before action after reached history _ taken round began past
    have continued : round < before.rounds.round.current →
        ∃ ended, EndedBefore config spec round ended after := by
      intro pastBefore
      obtain ⟨ended, reachable, justEnded, reaches⟩ := history round began pastBefore
      exact ⟨ended, reachable, justEnded, reaches.next action trivial taken⟩
    rcases (reached.advance taken round).clock with clock | ⟨isRound, number, _⟩
    · rw [clock.current] at past
      exact continued past
    · rw [isRound] at past
      by_cases pastBefore : round < before.rounds.round.current
      · exact continued pastBefore
      · have due : before.rounds.round.shouldUpdate (before.blockNumber + 1) = true := by
          rw [before.openedRound_current] at past
          by_contra waits
          rw [if_neg waits] at past
          omega
        rw [State.openedRound, if_pos due] at isRound past
        have isNext : after.rounds.round.current = round + 1 := by
          rw [isRound]
          simp only [RoundInfo.update] at past ⊢
          omega
        have isFirst : after.rounds.round.first = after.blockNumber := by
          rw [isRound, number]
          rfl
        exact ⟨after, reached.next trivial taken, ⟨isNext, isFirst⟩, .start⟩
  obtain ⟨start, built, reaches⟩ := reachable
  have begins : Reachable config spec start := ⟨start, built, .start⟩
  have isFirst : start.rounds.round.current = 1 := by
    obtain ⟨_, _, rounds, _, rfl⟩ := exists_started built
    rfl
  refine (begins.along reaches kept ?_).2 round began past
  intro round began past
  omega

end Popsicle
