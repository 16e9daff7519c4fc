import Popsicle.Stores
import Mathlib.Data.Finset.Card

/-!
# Who is paid

The payout of a round takes one sequencer off the snapshot in each block of the round
that it waits for, except the first.  A sequencer with points is paid exactly once if
that round lasts long enough for it to be taken off, and otherwise it is never paid.
-/

namespace Popsicle

open Foundation Exec Keyed

variable {AccountId Native : Type} [LinearOrder AccountId] {config : Config AccountId Native}
  {spec : ChainSpec AccountId Native} {before after state : State AccountId Native}

/-! ## Taking keys off -/

namespace KeyOrder

variable (order : KeyOrder AccountId)

/-- The keys without the first one. -/
def tail (keys : Finset AccountId) : Finset AccountId :=
  match order.first keys with
  | none => keys
  | some key => keys.erase key

/-- The keys that are left when some have been taken off one by one. -/
def rest (count : Nat) (keys : Finset AccountId) : Finset AccountId :=
  order.tail^[count] keys

theorem rest_succ (count : Nat) (keys : Finset AccountId) :
    order.rest (count + 1) keys = order.tail (order.rest count keys) :=
  Function.iterate_succ_apply' order.tail count keys

theorem tail_of_empty : order.tail ∅ = ∅ := by
  unfold tail
  split
  next => rfl
  next => exact Finset.erase_empty _

theorem card_tail (keys : Finset AccountId) : (order.tail keys).card = keys.card - 1 := by
  unfold tail
  split
  next noKey =>
    rw [order.first_none keys noKey]
    rfl
  next key isFirst => exact Finset.card_erase_of_mem (order.first_mem keys key isFirst)

theorem card_rest (count : Nat) (keys : Finset AccountId) :
    (order.rest count keys).card = keys.card - count := by
  induction count with
  | zero => rfl
  | succ count ih => rw [rest_succ, card_tail, ih, Nat.sub_sub]

theorem rest_eq_empty {count : Nat} {keys : Finset AccountId} (enough : keys.card ≤ count) :
    order.rest count keys = ∅ := by
  rw [← Finset.card_eq_zero, card_rest]
  exact Nat.sub_eq_zero_of_le enough

end KeyOrder

/-! ## The stores of a payout -/

/-- What a payout has made of the store of a round: the sequencers that are left still
have their entries, and the others have been paid if they had points. -/
structure Paying (payoutInfo : DelayedPayout) (start store : RoundStore AccountId) : Prop where
  subset : store.atStake.keys ⊆ start.atStake.keys
  points : ∀ sequencer ∈ store.atStake.keys, store.awarded sequencer = start.awarded sequencer
  ordered : ∀ sequencer, (∃ order ∈ store.orders, order.sequencer = sequencer) ↔
    sequencer ∈ start.atStake.keys ∧ sequencer ∉ store.atStake.keys ∧ start.awarded sequencer ≠ 0
  running : store.atStake.keys.Nonempty → store.points ≠ 0 ∧ store.payout = some payoutInfo

namespace RoundStore

variable {store start : RoundStore AccountId} {payoutInfo : DelayedPayout} {round : Nat}

theorem paid_of_empty (config : Config AccountId Native) (round : Nat)
    (isEmpty : store.atStake.keys = ∅) :
    (store.paid config round).atStake = store.atStake ∧
      (store.paid config round).orders = store.orders := by
  unfold RoundStore.paid
  split
  next => exact ⟨rfl, rfl⟩
  next =>
    split
    next => exact ⟨rfl, rfl⟩
    next =>
      split
      next => exact ⟨rfl, rfl⟩
      next sequencer isFirst =>
        have isKey := config.keyOrder.first_mem _ _ isFirst
        rw [isEmpty] at isKey
        cases isKey

/-- A payout with somebody left takes the first sequencer off. -/
theorem paid_of_nonempty (config : Config AccountId Native) (round : Nat)
    (running : store.points ≠ 0 ∧ store.payout = some payoutInfo)
    (nonempty : store.atStake.keys.Nonempty) :
    ∃ sequencer snapshot, config.keyOrder.first store.atStake.keys = some sequencer ∧
      store.atStake.get sequencer = some snapshot ∧
      store.paid config round = store.taken round payoutInfo sequencer snapshot := by
  cases isFirst : config.keyOrder.first store.atStake.keys with
  | none => exact absurd (config.keyOrder.first_none _ isFirst) nonempty.ne_empty
  | some sequencer =>
      have isKey := config.keyOrder.first_mem _ _ isFirst
      obtain ⟨snapshot, stored⟩ :=
        Option.isSome_iff_exists.mp ((store.atStake.mem_keys sequencer).mp isKey)
      refine ⟨sequencer, snapshot, rfl, stored, ?_⟩
      simp only [RoundStore.paid, running.2, if_neg running.1, isFirst, stored]

end RoundStore

/-- One block of a payout takes the first sequencer off and pays it if it has points. -/
theorem Paying.paid {payoutInfo : DelayedPayout} {start store : RoundStore AccountId}
    (paying : Paying payoutInfo start store) (round : Nat) :
    Paying payoutInfo start (store.paid config round) ∧
      (store.paid config round).atStake.keys = config.keyOrder.tail store.atStake.keys := by
  rcases Finset.eq_empty_or_nonempty store.atStake.keys with isEmpty | nonempty
  · obtain ⟨sameStake, sameOrders⟩ := RoundStore.paid_of_empty config round isEmpty
    refine ⟨⟨?_, ?_, ?_, ?_⟩, ?_⟩
    · rw [sameStake]
      exact paying.subset
    · simp [sameStake, isEmpty]
    · rw [sameStake, sameOrders]
      exact paying.ordered
    · simp [sameStake, isEmpty]
    · rw [sameStake, isEmpty, KeyOrder.tail_of_empty]
  · have running := paying.running nonempty
    obtain ⟨first, snapshot, isFirst, stored, isTaken⟩ :=
      RoundStore.paid_of_nonempty config round running nonempty
    have isKey := config.keyOrder.first_mem _ _ isFirst
    have keys : (store.taken round payoutInfo first snapshot).atStake.keys =
        store.atStake.keys.erase first := rfl
    have others : ∀ sequencer, sequencer ≠ first →
        (store.taken round payoutInfo first snapshot).awarded sequencer =
          store.awarded sequencer := by
      intro sequencer different
      unfold RoundStore.awarded RoundStore.taken
      rw [StorageMap.get_remove_of_ne _ different]
    rw [isTaken]
    refine ⟨⟨?_, ?_, ?_, fun _ => running⟩, ?_⟩
    · rw [keys]
      exact (Finset.erase_subset _ _).trans paying.subset
    · intro sequencer isLeft
      rw [keys, Finset.mem_erase] at isLeft
      rw [others sequencer isLeft.1]
      exact paying.points sequencer isLeft.2
    · intro sequencer
      have split : (∃ order ∈ (store.taken round payoutInfo first snapshot).orders,
          order.sequencer = sequencer) ↔
          (∃ order ∈ store.orders, order.sequencer = sequencer) ∨
            (store.awarded first ≠ 0 ∧ sequencer = first) := by
        simp only [RoundStore.taken, List.mem_append, RoundStore.mem_order, or_and_right,
          exists_or]
        refine or_congr_right ⟨?_, ?_⟩
        · rintro ⟨order, ⟨hasPoints, rfl⟩, rfl⟩
          exact ⟨hasPoints, rfl⟩
        · rintro ⟨hasPoints, rfl⟩
          exact ⟨_, ⟨hasPoints, rfl⟩, rfl⟩
      rw [split, paying.ordered, keys, Finset.mem_erase, paying.points first isKey]
      by_cases isNow : sequencer = first
      · subst isNow
        have isStart := paying.subset isKey
        simp [isKey, isStart]
      · simp [isNow]
    · rw [keys, KeyOrder.tail, isFirst]

theorem Paying.iterate {payoutInfo : DelayedPayout} {start : RoundStore AccountId}
    (noOrders : start.orders = [])
    (running : start.points ≠ 0 ∧ start.payout = some payoutInfo) (round blocks : Nat) :
    Paying payoutInfo start ((RoundStore.paid config round)^[blocks] start) ∧
      ((RoundStore.paid config round)^[blocks] start).atStake.keys =
        config.keyOrder.rest blocks start.atStake.keys := by
  induction blocks with
  | zero =>
      refine ⟨⟨subset_refl _, fun _ _ => rfl, ?_, fun _ => running⟩, rfl⟩
      intro sequencer
      simp only [Function.iterate_zero, id_eq, noOrders]
      constructor
      · rintro ⟨order, member, _⟩
        cases member
      · rintro ⟨isKey, isOff, _⟩
        exact absurd isKey isOff
  | succ blocks ih =>
      obtain ⟨paying, keys⟩ := ih
      rw [Function.iterate_succ_apply', KeyOrder.rest_succ, ← keys]
      exact paying.paid round

/-! ## The blocks of a payout -/

/-- When a round has just ended, its payout is prepared if it has points, and nothing has
been ordered. -/
def Prepared (config : Config AccountId Native) (round : Nat) (state : State AccountId Native) :
    Prop :=
  JustEnded round state → (state.rounds.store round).orders = [] ∧
    ((state.rounds.store round).points ≠ 0 → ∃ payoutInfo,
      payoutInfo.totalStakingReward = config.roundReward ∧
        (state.rounds.store round).payout = some payoutInfo)

theorem Reached.prepared {admits : State AccountId Native → Action AccountId Native → Prop}
    (reached : Reached config spec admits state) (round : Nat) : Prepared config round state := by
  refine reached.chain (fun state action _ => allows_any state action) ?_ ?_
  · rintro stakes start started ⟨isNext, _⟩
    have filed := started.filed round
    obtain ⟨rounds, selection, rfl⟩ := started
    have isZero : 1 = round + 1 := isNext
    obtain ⟨snapshots, selectedCandidates, rfl⟩ := selection.frame
    exact ⟨rfl, fun hasPoints => absurd rfl hasPoints⟩
  · intro before action after reachedBefore prepared _ transition justEnded
    have advance := transition.advance reachedBefore.onTime_any round
    cases advance with
    | keeps clock store =>
        rw [store]
        refine prepared ⟨?_, ?_⟩
        · rw [← clock.current]
          exact justEnded.next
        · rw [← clock.first, ← clock.number]
          exact justEnded.now
    | awards sequencer points isAward clock isCurrent =>
        have isNext := justEnded.next
        rw [clock.current] at isNext
        omega
    | opens parentHash isBlock clock store settled =>
        have isNext := justEnded.next
        have isNow := justEnded.now
        have begun := reachedBefore.onTime_any.begun
        rw [clock.isRound, clock.number] at isNow
        rw [clock.isRound] at isNext
        have due : before.rounds.round.shouldUpdate (before.blockNumber + 1) = true := by
          by_contra waits
          rw [State.openedRound, if_neg waits] at isNow
          omega
        rw [State.openedRound, if_pos due] at isNext
        have isCurrent : round = before.rounds.round.current := by
          simp only [RoundInfo.update] at isNext
          omega
        have filed := reachedBefore.filed round
        have noOrders := (filed.unpaid isCurrent.ge).2
        rw [settled (.inl isCurrent.le), Rounds.opened, if_pos due, if_pos isCurrent,
          RoundStore.ended]
        split
        next noPoints => exact ⟨noOrders, fun hasPoints => absurd noPoints hasPoints⟩
        next => exact ⟨noOrders, fun _ => ⟨_, rfl, rfl⟩⟩

/-- How many blocks have continued the payout of a round: none until its payout is due,
then all blocks of the round but the first. -/
def Elapsed (config : Config AccountId Native) (round : Nat) (state : State AccountId Native)
    (blocks : Nat) : Prop :=
  (state.rounds.round.current < round + config.rewardPaymentDelay ∧ blocks = 0) ∨
    (state.rounds.round.current = round + config.rewardPaymentDelay ∧
      blocks = state.blockNumber - state.rounds.round.first) ∨
    (round + config.rewardPaymentDelay < state.rounds.round.current ∧
      ∃ first next between, Completed state.rounds.events (round + config.rewardPaymentDelay)
        first next between ∧ blocks = next - first - 1)

omit [LinearOrder AccountId] in
/-- When the next round begins, the log shows the current one from beginning to end. -/
theorem OnTime.completed {point : Nat} {ends : Nat → Nat → Prop} (onTime : OnTime point ends state)
    (next : Nat) : ∃ between,
      Completed (state.rounds.events ++ [.newRound next (state.rounds.round.current + 1)])
        state.rounds.round.current state.rounds.round.first next between := by
  obtain ⟨earlier, isLog, _⟩ := onTime.logged.last
  rw [isLog]
  exact ⟨_, earlier, [], rfl⟩

/-- The payouts of a round that is over are made one per block. -/
theorem Elapsed.advance {round blocks : Nat} {action : Action AccountId Native}
    {start : RoundStore AccountId}
    (elapsed : Elapsed config round before blocks)
    (isStore : before.rounds.store round = (RoundStore.paid config round)^[blocks] start)
    (onTime : OnTime spec.snapshotTimePoint (fun _ _ => True) before)
    (past : round < before.rounds.round.current)
    (advance : Advance config before action after round) :
    ∃ blocks, Elapsed config round after blocks ∧
      after.rounds.store round = (RoundStore.paid config round)^[blocks] start := by
  cases advance with
  | keeps clock store =>
      refine ⟨blocks, ?_, store.trans isStore⟩
      unfold Elapsed
      rw [clock.current, clock.first, clock.number, clock.events]
      exact elapsed
  | awards sequencer points isAward clock isCurrent => exact absurd isCurrent past.ne
  | opens parentHash isBlock clock store settled =>
      have begun := onTime.begun
      obtain ⟨more, events⟩ := clock.events
      rw [settled (.inl past.le)]
      unfold Elapsed Rounds.opened
      rw [events, clock.isRound, clock.number]
      unfold State.openedRound
      by_cases due : before.rounds.round.shouldUpdate (before.blockNumber + 1) = true
      · simp only [if_pos due, if_neg past.ne, RoundInfo.update]
        refine ⟨blocks, ?_, isStore⟩
        rcases elapsed with
          ⟨early, rfl⟩ | ⟨isDue, rfl⟩ | ⟨late, first, next, between, completed, rfl⟩
        · by_cases isNext : before.rounds.round.current + 1 = round + config.rewardPaymentDelay
          · exact .inr (.inl ⟨isNext, (Nat.sub_self _).symm⟩)
          · exact .inl ⟨by omega, rfl⟩
        · refine .inr (.inr ⟨by omega, before.rounds.round.first, before.blockNumber + 1, ?_⟩)
          obtain ⟨between, completed⟩ := onTime.completed (before.blockNumber + 1)
          rw [isDue] at completed ⊢
          exact ⟨between, completed.append, by omega⟩
        · refine .inr (.inr ⟨by omega, first, next, between, ?_, rfl⟩)
          rw [List.append_assoc]
          exact completed.append
      · simp only [if_neg due]
        rcases elapsed with
          ⟨early, rfl⟩ | ⟨isDue, rfl⟩ | ⟨late, first, next, between, completed, rfl⟩
        · rw [if_neg early.ne']
          exact ⟨0, .inl ⟨early, rfl⟩, isStore⟩
        · rw [if_pos isDue.symm]
          refine ⟨_, .inr (.inl ⟨isDue, rfl⟩), ?_⟩
          rw [Nat.succ_sub begun, Function.iterate_succ_apply', isStore]
        · rw [if_neg late.ne]
          refine ⟨_, .inr (.inr ⟨late, first, next, between, ?_, rfl⟩), isStore⟩
          rw [List.append_assoc]
          exact completed.append

/-- From the end of a round on, its payout has been continued by every block that could. -/
theorem EndedBefore.elapsed {round : Nat} {ended : State AccountId Native}
    (history : EndedBefore config spec round ended state) (delay : 1 ≤ config.rewardPaymentDelay) :
    ∃ blocks, Elapsed config round state blocks ∧
      state.rounds.store round =
        (RoundStore.paid config round)^[blocks] (ended.rounds.store round) := by
  obtain ⟨reachable, ⟨isNext, isNow⟩, reaches⟩ := history
  have past : round < ended.rounds.round.current := by
    rw [isNext]
    exact Nat.lt_succ_self _
  have kept : ∀ before action after, Reachable config spec before →
      (round < before.rounds.round.current ∧ ∃ blocks, Elapsed config round before blocks ∧
        before.rounds.store round =
          (RoundStore.paid config round)^[blocks] (ended.rounds.store round)) →
      True → step config before action = some after →
      round < after.rounds.round.current ∧ ∃ blocks, Elapsed config round after blocks ∧
        after.rounds.store round =
          (RoundStore.paid config round)^[blocks] (ended.rounds.store round) := by
    rintro before action after reached ⟨pastBefore, blocks, elapsed, isStore⟩ _ taken
    have advance := reached.advance taken round
    exact ⟨(advance.past pastBefore).1,
      elapsed.advance isStore reached.onTime_any pastBefore advance⟩
  refine (reachable.along reaches kept ⟨past, 0, ?_, rfl⟩).2.2
  unfold Elapsed
  by_cases isDue : ended.rounds.round.current = round + config.rewardPaymentDelay
  · exact .inr (.inl ⟨isDue, by omega⟩)
  · exact .inl ⟨by omega, rfl⟩

/-! ## Once for every sequencer with points -/

/-- How often a sequencer has been paid for a round. -/
def Rounds.timesPaid (rounds : Rounds AccountId) (round : Nat) (sequencer : AccountId) : Nat :=
  (rounds.orders.filter fun order => order.round = round ∧ order.sequencer = sequencer).length

/-- A sequencer is in the snapshot of a round and has points in it. -/
def Rounds.Owes (rounds : Rounds AccountId) (round : Nat) (sequencer : AccountId) : Prop :=
  ((rounds.atStake round).get sequencer).isSome = true ∧ rounds.awarded round sequencer ≠ 0

theorem Rounds.timesPaid_eq (rounds : Rounds AccountId) (round : Nat) (sequencer : AccountId) :
    rounds.timesPaid round sequencer =
      (select RewardOrder.sequencer (rounds.store round).orders sequencer).length := by
  unfold Rounds.timesPaid Rounds.store Keyed.select
  simp [List.filter_filter, and_comm]

/-- A sequencer is paid once if there is an order for it, and otherwise never. -/
theorem Filed.timesPaid {rounds : Rounds AccountId} {round : Nat} (filed : Filed rounds round)
    (sequencer : AccountId) :
    rounds.timesPaid round sequencer ≤ 1 ∧
      (rounds.timesPaid round sequencer = 1 ↔
        ∃ order ∈ (rounds.store round).orders, order.sequencer = sequencer) := by
  rw [Rounds.timesPaid_eq]
  cases found : lookup RewardOrder.sequencer (rounds.store round).orders sequencer with
  | none =>
      rw [select_eq_nil found]
      refine ⟨Nat.zero_le _, iff_of_false nofun ?_⟩
      rintro ⟨order, member, isSequencer⟩
      exact lookup_eq_none.mp found order member isSequencer
  | some order =>
      rw [filed.proper.distinct.select found]
      exact ⟨le_refl _, iff_of_true rfl ⟨order, mem_of_lookup found, key_of_lookup found⟩⟩

/-- A sequencer is paid for a round by the time the round it is paid in is over, if and
only if that round has a block for it; so all are paid if it has more blocks than there
are snapshots.  Nobody is ever paid twice. -/
theorem paid_once_iff (delay : 1 ≤ config.rewardPaymentDelay) (spec : ChainSpec AccountId Native) :
    (∀ state, Reachable config spec state → ∀ round sequencer,
      state.rounds.timesPaid round sequencer ≤ 1) ∧
    ∀ round ended state, EndedBefore config spec round ended state →
      ended.rounds.points round ≠ 0 →
      round + config.rewardPaymentDelay < state.rounds.round.current →
      (∃ first next between, Completed state.rounds.events (round + config.rewardPaymentDelay)
        first next between) ∧
      ∀ first next between, Completed state.rounds.events (round + config.rewardPaymentDelay)
        first next between →
        (∀ sequencer, ended.rounds.Owes round sequencer →
          ((state.rounds.timesPaid round sequencer = 1 ∧ ¬state.rounds.Owes round sequencer) ↔
            sequencer ∉ config.keyOrder.rest (next - first - 1)
              (ended.rounds.atStake round).keys)) ∧
        ((ended.rounds.atStake round).keys.card < next - first →
          ∀ sequencer, ended.rounds.Owes round sequencer →
            state.rounds.timesPaid round sequencer = 1 ∧
              ¬state.rounds.Owes round sequencer) := by
  refine ⟨fun state reachable round sequencer =>
    ((reachable.filed round).timesPaid sequencer).1, ?_⟩
  intro round ended state history hasPoints isOver
  have reachable := history.reachable.later history.reaches
  have onTime := reachable.onTime_any
  obtain ⟨blocks, elapsed, isStore⟩ := history.elapsed delay
  obtain ⟨noOrders, prepared⟩ := history.reachable.prepared round history.justEnded
  obtain ⟨payoutInfo, _, stored⟩ := prepared hasPoints
  obtain ⟨paying, keys⟩ := Paying.iterate noOrders ⟨hasPoints, stored⟩ round blocks
  rw [← isStore] at paying keys
  have isOver : ∃ first next between, Completed state.rounds.events
      (round + config.rewardPaymentDelay) first next between ∧ blocks = next - first - 1 := by
    rcases elapsed with ⟨early, _⟩ | ⟨isDue, _⟩ | ⟨_, completed⟩
    · omega
    · omega
    · exact completed
  obtain ⟨first, next, between, completed, isBlocks⟩ := isOver
  refine ⟨⟨first, next, between, completed⟩, ?_⟩
  intro first' next' between' completed'
  obtain ⟨rfl, rfl⟩ := onTime.logged.completed_unique completed completed'
  have paidOnce : ∀ sequencer, ended.rounds.Owes round sequencer →
      ((state.rounds.timesPaid round sequencer = 1 ∧ ¬state.rounds.Owes round sequencer) ↔
        sequencer ∉ config.keyOrder.rest (next - first - 1) (ended.rounds.atStake round).keys) := by
    rintro sequencer ⟨isStaked, isAwarded⟩
    have isKey : sequencer ∈ (ended.rounds.store round).atStake.keys :=
      ((ended.rounds.atStake round).mem_keys sequencer).mpr isStaked
    have left : sequencer ∈ (state.rounds.store round).atStake.keys ↔
        sequencer ∈ config.keyOrder.rest (next - first - 1) (ended.rounds.atStake round).keys := by
      rw [keys, isBlocks]
      rfl
    rw [((reachable.filed round).timesPaid sequencer).2, paying.ordered, ← left]
    constructor
    · rintro ⟨⟨_, isOff, _⟩, _⟩
      exact isOff
    · intro isOff
      refine ⟨⟨isKey, isOff, isAwarded⟩, ?_⟩
      rintro ⟨isLeft, _⟩
      exact isOff (((state.rounds.atStake round).mem_keys sequencer).mpr isLeft)
  refine ⟨paidOnce, fun enough sequencer owed => (paidOnce sequencer owed).mpr ?_⟩
  rw [config.keyOrder.rest_eq_empty (by omega)]
  exact Finset.notMem_empty sequencer

/-- A genesis with five sequencers of which two are selected.  The hashed keys of storage
are in the order of these accounts. -/
def quintetGenesis : ChainSpec Nat (Nat → Nat) :=
  { mockGenesis [6, 10, 12, 14, 16] [] with groupSize := 2 }

/-- Root has all five selected from the second round on, in which all get points. -/
def enlargedRun : List (Action Nat (Nat → Nat)) :=
  [.nextBlock 0, .extrinsic .root (.setGroupMetric 5 1)] ++ List.replicate 4 (.nextBlock 0) ++
    [6, 10, 12, 14, 16].map (fun sequencer => .awardPoints sequencer 20) ++
    List.replicate 5 (.nextBlock 0)

/-- What is seen of the payout of the second round: at the end of that round, and after the
fourth. -/
def enlargedPayout : Option (List Nat × List Bool) :=
  (played mockRuntime quintetGenesis enlargedRun).bind fun ended =>
    (run (step mockRuntime) ended (List.replicate 10 (.nextBlock 0))).map fun state =>
      ([ended.rounds.round.current, ended.rounds.round.first, ended.blockNumber,
          ended.rounds.points 2, ended.rounds.awarded 2 16, state.rounds.round.current,
          state.rounds.timesPaid 2 16],
        [((ended.rounds.atStake 2).get 16).isSome])

/-- Five sequencers with points wait for a round of five blocks. -/
theorem exists_payout :
    ∃ ended state, EndedBefore mockRuntime quintetGenesis 2 ended state ∧
      ended.rounds.points 2 ≠ 0 ∧
      2 + mockRuntime.rewardPaymentDelay < state.rounds.round.current ∧
      ended.rounds.Owes 2 16 ∧ state.rounds.timesPaid 2 16 = 0 := by
  obtain ⟨ended, isPlayed, shown⟩ := Option.bind_eq_some_iff.mp
    (show enlargedPayout = some ([3, 10, 10, 100, 20, 5, 0], [true]) by decide +kernel)
  obtain ⟨state, continued, shown⟩ := Option.map_eq_some_iff.mp shown
  simp only [Prod.mk.injEq, List.cons.injEq, and_true] at shown
  obtain ⟨⟨isNext, begins, number, points, awarded, current, timesPaid⟩, staked⟩ := shown
  have admitted : ∀ state : State Nat (Nat → Nat), ∀ action ∈ List.replicate 10
      (Action.nextBlock 0 : Action Nat (Nat → Nat)), True := fun _ _ _ => trivial
  have reaches : Reaches (step mockRuntime) (fun _ _ => True) ended state :=
    Reaches.start.append (admitted_of_forall admitted ended) continued
  refine ⟨ended, state, ⟨Reached.of_played_any isPlayed, ⟨isNext, begins.trans number.symm⟩,
    reaches⟩, ?_, ?_, ⟨staked, ?_⟩, timesPaid⟩
  · rw [points]
    decide
  · rw [current]
    decide
  · rw [awarded]
    decide

/-- A sequencer with points is never paid for its round. -/
theorem payment_missed :
    1 ≤ mockRuntime.rewardPaymentDelay ∧
      ∃ ended state, EndedBefore mockRuntime quintetGenesis 2 ended state ∧
        ended.rounds.points 2 ≠ 0 ∧
        2 + mockRuntime.rewardPaymentDelay < state.rounds.round.current ∧
        ended.rounds.Owes 2 16 ∧
        ¬(state.rounds.timesPaid 2 16 = 1 ∧ ¬state.rounds.Owes 2 16) := by
  obtain ⟨ended, state, history, hasPoints, isOver, owed, never⟩ := exists_payout
  refine ⟨by decide, ended, state, history, hasPoints, isOver, owed, ?_⟩
  rintro ⟨once, _⟩
  rw [never] at once
  cases once

/-- The last one is left over, by the general criterion. -/
theorem paid_once_iff_quintet :
    ∃ ended state first next between, EndedBefore mockRuntime quintetGenesis 2 ended state ∧
      Completed state.rounds.events 4 first next between ∧
      16 ∈ mockRuntime.keyOrder.rest (next - first - 1) (ended.rounds.atStake 2).keys := by
  obtain ⟨ended, state, history, hasPoints, isOver, owed, never⟩ := exists_payout
  obtain ⟨⟨first, next, between, completed⟩, decided⟩ :=
    (paid_once_iff (by decide) quintetGenesis).2 2 ended state history hasPoints isOver
  refine ⟨ended, state, first, next, between, history, completed, ?_⟩
  by_contra isOff
  obtain ⟨once, _⟩ := ((decided first next between completed).1 16 owed).mpr isOff
  rw [never] at once
  cases once

end Popsicle
