import Popsicle.Payments

/-!
# What a payout leaves behind

The first block of a round only starts it, and each of the others takes one sequencer off
the payout that is due.  Only a block that finds nobody left removes what is stored about
the payout, so the round needs two blocks more than there are sequencers to be paid.
-/

namespace Popsicle

open Foundation Exec Keyed

variable {AccountId Native : Type} [LinearOrder AccountId] {config : Config AccountId Native}
  {spec : ChainSpec AccountId Native} {before after state : State AccountId Native}

/-- Nothing is left of the payout of a round. -/
structure CleanedUp (rounds : Rounds AccountId) (round : Nat) : Prop where
  atStake : ∀ account, (rounds.atStake round).get account = none
  payout : rounds.delayedPayouts.get round = none
  points : rounds.points round = 0

/-! ## The blocks of a payout -/

namespace RoundStore

variable {store start : RoundStore AccountId} {payoutInfo : DelayedPayout} {round : Nat}

theorem paid_of_nobody (isEmpty : store.atStake.keys = ∅)
    (isPayout : store.payout = some payoutInfo) : store.paid config round = store.finished := by
  have noKey : config.keyOrder.first store.atStake.keys = none := by
    rw [Option.eq_none_iff_forall_ne_some]
    intro sequencer isFirst
    have isKey := config.keyOrder.first_mem _ _ isFirst
    rw [isEmpty] at isKey
    cases isKey
  simp only [RoundStore.paid, isPayout, noKey, ite_self]

theorem iterate_paid_keys (config : Config AccountId Native) (round : Nat)
    (noOrders : start.orders = [])
    (running : start.points ≠ 0 ∧ start.payout = some payoutInfo) (blocks : Nat) :
    ((RoundStore.paid config round)^[blocks] start).atStake.keys =
      config.keyOrder.rest blocks start.atStake.keys :=
  (Paying.iterate noOrders running round blocks).2

/-- The points of a payout are kept until a block finds nobody left. -/
theorem iterate_paid_points (config : Config AccountId Native) (round : Nat)
    (noOrders : start.orders = [])
    (running : start.points ≠ 0 ∧ start.payout = some payoutInfo) (blocks : Nat) :
    ((RoundStore.paid config round)^[blocks] start).points =
        (if blocks ≤ start.atStake.keys.card then start.points else 0) ∧
      ((RoundStore.paid config round)^[blocks] start).payout =
        if blocks ≤ start.atStake.keys.card then some payoutInfo else none := by
  induction blocks with
  | zero => exact ⟨rfl, running.2⟩
  | succ blocks ih =>
      obtain ⟨points, payout⟩ := ih
      have keys := iterate_paid_keys config round noOrders running blocks
      have card := config.keyOrder.card_rest blocks start.atStake.keys
      rw [← keys] at card
      rw [Function.iterate_succ_apply']
      rcases lt_trichotomy blocks start.atStake.keys.card with someLeft | isLast | isOver
      · have nonempty : ((RoundStore.paid config round)^[blocks] start).atStake.keys.Nonempty := by
          rw [← Finset.card_pos]
          omega
        rw [if_pos someLeft.le] at points payout
        obtain ⟨sequencer, snapshot, _, _, isTaken⟩ := paid_of_nonempty config round
          ⟨points.trans_ne running.1, payout⟩ nonempty
        have enough : blocks + 1 ≤ start.atStake.keys.card := someLeft
        rw [isTaken, if_pos enough, if_pos enough]
        exact ⟨points, payout⟩
      · have isEmpty : ((RoundStore.paid config round)^[blocks] start).atStake.keys = ∅ := by
          rw [← Finset.card_eq_zero]
          omega
        have notEnough : ¬blocks + 1 ≤ start.atStake.keys.card := by omega
        rw [if_pos isLast.le] at payout
        rw [paid_of_nobody isEmpty payout, if_neg notEnough, if_neg notEnough]
        exact ⟨rfl, rfl⟩
      · have notEnough : ¬blocks + 1 ≤ start.atStake.keys.card := by omega
        rw [if_neg isOver.not_ge] at points payout
        have done : ((RoundStore.paid config round)^[blocks] start).paid config round =
            (RoundStore.paid config round)^[blocks] start := by
          simp only [RoundStore.paid, payout]
        rw [done, if_neg notEnough, if_neg notEnough]
        exact ⟨points, payout⟩

end RoundStore

/-! ## The size of snapshots -/

/-- No round has more snapshots than a number. -/
def Sized (selected : Nat) (rounds : Rounds AccountId) : Prop :=
  ∀ round, (rounds.atStake round).keys.card ≤ selected

theorem Opens.keys_subset {n : Nat} (opens : Opens config n before after) (round : Nat) :
    (after.rounds.atStake round).keys ⊆ (before.rounds.atStake round).keys := by
  let keeps : RoundStore AccountId → Prop := fun store =>
    store.atStake.keys ⊆ (before.rounds.atStake round).keys
  have held : keeps (before.rounds.store round) := subset_refl _
  have kept : keeps (before.rounds.opened config n round) := by
    apply Rounds.opened_kept held
    · intro _
      unfold RoundStore.ended
      split <;> exact held
    · intro _
      apply RoundStore.paid_kept held
      · exact fun _ => held
      · exact fun _ _ _ _ _ _ _ => (Finset.erase_subset _ _).trans held
  rw [← opens.store round] at kept
  exact kept

/-- The members of the pool that can be selected are no more than a number. -/
def Limited (most : Nat) (state : State AccountId Native) : Prop :=
  ∀ sequencers : List AccountId,
    sequencers.Subperm (state.stakes.candidatePool.entries.map Bond.owner) →
      sequencers.length ≤ state.groups.toSelect → sequencers.length ≤ most

/-- A selection for a round without snapshots takes at most as many as can be selected. -/
theorem Selection.sized {most next : Nat} {rounds : Rounds AccountId}
    (selection : Selection config next before rounds) (sized : Sized most before.rounds)
    (limited : Limited most before)
    (fresh : ∀ account, (before.rounds.atStake next).get account = none) :
    Sized most rounds := by
  intro round
  cases selection with
  | repeats =>
      by_cases isNext : round = next
      · subst isNext
        refine (Finset.card_le_card fun account isKey => ?_).trans (sized (round - 1))
        dsimp only at isKey
        rw [StorageMap.mem_keys, Function.update_self, StorageMap.get_overlay, fresh account,
          Option.or_none] at isKey
        exact (StorageMap.mem_keys _ account).mpr isKey
      · dsimp only
        rw [Function.update_of_ne isNext]
        exact sized round
  | selects sequencers snapshots something nonempty members atMost taken =>
      by_cases isNext : round = next
      · subst isNext
        have isSelected : snapshots.keys ⊆ sequencers.toFinset := by
          intro account isKey
          by_contra notSelected
          rw [List.mem_toFinset] at notSelected
          rw [StorageMap.mem_keys, taken.2 account notSelected, fresh account] at isKey
          cases isKey
        dsimp only
        rw [Function.update_self]
        exact (Finset.card_le_card isSelected).trans
          (sequencers.toFinset_card_le.trans (limited sequencers members atMost))
      · dsimp only
        rw [Function.update_of_ne isNext]
        exact sized round

theorem Sized.block {most parentHash : Nat}
    {admits : State AccountId Native → Action AccountId Native → Prop}
    (sized : Sized most before.rounds) (limited : Limited most before)
    (reached : Reached config spec admits before)
    (block : Block config (before.blockNumber + 1) (enterBlock before parentHash) after) :
    Sized most after.rounds := by
  have opened : ∀ {middle : State AccountId Native},
      Opens config (before.blockNumber + 1) (enterBlock before parentHash) middle →
        Sized most middle.rounds := fun opens round =>
    (Finset.card_le_card (opens.keys_subset round)).trans (sized round)
  cases block with
  | plain opens noSnapshot => exact opened opens
  | snapshots rounds opens snapshot selection =>
      have onTime := reached.onTime_any
      have entered : Staged (enterBlock before parentHash).rounds := reached.staged
      have staged := entered.opens onTime.logged.mem_candidatesSelected.2 opens
      have notYet := (onTime.opens opens fun _ => trivial).notYet snapshot
      obtain ⟨_, _, _, samePool, sameGroups⟩ := opens.reads
      apply selection.sized (opened opens)
      · unfold Limited
        rw [samePool, sameGroups]
        exact limited
      · exact staged.absent _ notYet

/-! ## Guarded runs -/

/-- The round length and the number of sequencers to select are these, and the length is
greater. -/
def Guarded (length selected : Nat) (state : State AccountId Native)
    (_ : Action AccountId Native) : Prop :=
  state.rounds.round.length = length ∧ state.groups.toSelect = selected ∧ selected < length

/-- In a guarded run snapshots have at most the size that is selected. -/
theorem Reached.sized {length selected : Nat}
    (reached : Reached config spec (Guarded length selected) state)
    (toSelect : state.groups.toSelect = selected) : Sized selected state.rounds := by
  let holds : State AccountId Native → Prop := fun state =>
    state.groups.toSelect = selected → Sized selected state.rounds
  suffices held : holds state from held toSelect
  refine reached.chain (fun state action _ => allows_any state action) ?_ ?_
  · rintro stakes start ⟨rounds, selection, rfl⟩ isSelected
    have isInitial : spec.initial.groups.toSelect ≤ selected := by
      rw [← isSelected]
      simp only [ChainSpec.initial, Groups.toSelect]
      split <;> simp
    have nothing : Sized selected (spec.initial : State AccountId Native).rounds :=
      fun _ => Nat.zero_le _
    exact selection.sized nothing (fun _ _ atMost => atMost.trans isInitial) fun _ => rfl
  · intro before action after reachedBefore conditional guards transition _
    have sized := conditional guards.2.1
    cases transition with
    | update update => cases update <;> exact sized
    | awards => exact sized
    | block parentHash block =>
        exact sized.block (fun _ _ atMost => atMost.trans guards.2.1.le) reachedBefore block

theorem Reached.punctual {length selected : Nat} (guarded : selected < length)
    (reached : Reached config spec (Guarded length selected) state) :
    state.blockNumber < state.rounds.round.first + length := by
  let holds : State AccountId Native → Prop := fun state =>
    state.blockNumber < state.rounds.round.first + length
  suffices held : holds state from held
  refine reached.chain (fun state action _ => allows_any state action) ?_ ?_
  · rintro stakes start ⟨rounds, selection, rfl⟩
    have starts : 0 < 0 + length := by omega
    exact starts
  · intro before action after reachedBefore punctual guards transition
    have onTime := reachedBefore.onTime_any
    have begun := onTime.begun
    dsimp only [holds] at punctual ⊢
    rcases (transition.advance onTime 0).clock with clock | clock
    · rw [clock.number, clock.first]
      exact punctual
    · rw [clock.number, clock.isRound, State.openedRound]
      split
      next => exact Nat.lt_add_of_pos_right guarded.pos
      next waits =>
        simp only [RoundInfo.shouldUpdate, guards.1, decide_eq_true_eq] at waits
        omega

theorem Reached.guardedRounds {length selected : Nat} (guarded : selected < length)
    (reached : Reached config spec (Guarded length selected) state) :
    OnTime spec.snapshotTimePoint (fun first next => next = first + length) state := by
  apply reached.onTime
  intro before action reachedBefore guards
  cases action with
  | nextBlock parentHash =>
      intro due
      have punctual := reachedBefore.punctual guarded
      have begun := reachedBefore.onTime_any.begun
      simp only [RoundInfo.shouldUpdate, guards.1, decide_eq_true_eq] at due
      omega
  | _ => trivial

/-! ## After the payout -/

section Cleanup

variable {length selected round : Nat} {ended left : State AccountId Native}

/-- Where the payout of a round with points has had a number of blocks, nothing is left of it
if and only if one of them found nobody left. -/
theorem cleanedUp_iff_of_iterate {payoutInfo : DelayedPayout} {blocks : Nat}
    (noOrders : (ended.rounds.store round).orders = [])
    (hasPoints : ended.rounds.points round ≠ 0)
    (stored : (ended.rounds.store round).payout = some payoutInfo)
    (isStore : left.rounds.store round =
      (RoundStore.paid config round)^[blocks] (ended.rounds.store round)) :
    CleanedUp left.rounds round ↔ (ended.rounds.atStake round).keys.card < blocks := by
  have running : (ended.rounds.store round).points ≠ 0 ∧
    (ended.rounds.store round).payout = some payoutInfo := ⟨hasPoints, stored⟩
  obtain ⟨points, payout⟩ :=
    RoundStore.iterate_paid_points config round noOrders running blocks
  have keys := RoundStore.iterate_paid_keys config round noOrders running blocks
  have sameKeys : (ended.rounds.store round).atStake = ended.rounds.atStake round := rfl
  rw [← isStore] at points payout keys
  rw [sameKeys] at points payout keys
  constructor
  · intro cleaned
    by_contra notEnough
    rw [if_pos (not_lt.mp notEnough)] at points
    exact hasPoints (points.symm.trans cleaned.points)
  · intro enough
    rw [if_neg (not_le.mpr enough)] at points payout
    refine ⟨fun account => ?_, payout, points⟩
    have isEmpty : (left.rounds.atStake round).keys = ∅ :=
      keys.trans (config.keyOrder.rest_eq_empty enough.le)
    rw [← Option.not_isSome_iff_eq_none, ← StorageMap.mem_keys, isEmpty]
    exact Finset.notMem_empty account

/-- The payout of a round has one block less than the round it is made in. -/
theorem Reached.payoutBlocks (delay : 1 ≤ config.rewardPaymentDelay) (guarded : selected < length)
    (history : EndedBefore config spec round ended left)
    (reached : Reached config spec (Guarded length selected) left)
    (leaves : JustEnded (round + config.rewardPaymentDelay) left) :
    left.rounds.store round =
      (RoundStore.paid config round)^[length - 1] (ended.rounds.store round) := by
  obtain ⟨blocks, elapsed, isStore⟩ := history.elapsed delay
  have isNext := leaves.next
  rcases elapsed with ⟨early, _⟩ | ⟨isDue, _⟩ | ⟨_, first, next, between, completed, isBlocks⟩
  · omega
  · omega
  · obtain ⟨earlier, later, isLog⟩ := completed
    have isLength := ((reached.guardedRounds guarded).logged.between isLog).2
    have isCount : blocks = length - 1 := by omega
    rw [isStore, isCount]

/-- In a guarded run the chain leaves nothing at stake of a payout that is over, and nothing of
the payout itself if and only if two blocks more than there were sequencers made up the round
it was made in. -/
theorem cleaned_up_iff (delay : 1 ≤ config.rewardPaymentDelay)
    (reached : Reached config spec (Guarded length selected) ended)
    (justEnded : JustEnded round ended) (hasPoints : ended.rounds.points round ≠ 0)
    (reaches : Reaches (step config) (Guarded length selected) ended left)
    (leaves : JustEnded (round + config.rewardPaymentDelay) left) :
    (∀ account, (left.rounds.atStake round).get account = none) ∧
      (CleanedUp left.rounds round ↔ (ended.rounds.atStake round).keys.card + 1 < length) ∧
      (selected + 1 < length → CleanedUp left.rounds round) := by
  have later : Reached config spec (Guarded length selected) left :=
    reaches.invariant reached fun _ _ _ before admitted taken => before.next admitted taken
  have history : EndedBefore config spec round ended left :=
    ⟨reached.reachable, justEnded, reaches.weaken fun _ _ _ => trivial⟩
  have guards : Guarded length selected ended (.nextBlock 0) := by
    rcases reaches.eq_or_admits with rfl | ⟨action, first⟩
    · have isNext := justEnded.next
      have isLater := leaves.next
      omega
    · exact first
  obtain ⟨_, isSelected, guarded⟩ := guards
  have size := reached.sized isSelected round
  have isStore := later.payoutBlocks delay guarded history leaves
  obtain ⟨noOrders, prepared⟩ := reached.prepared round justEnded
  obtain ⟨payoutInfo, _, stored⟩ := prepared hasPoints
  have cleaned := cleanedUp_iff_of_iterate noOrders hasPoints stored isStore
  have exact : CleanedUp left.rounds round ↔
      (ended.rounds.atStake round).keys.card + 1 < length := by
    rw [cleaned]
    omega
  refine ⟨fun account => ?_, exact, fun roomy => exact.mpr (by omega)⟩
  have keys : (left.rounds.atStake round).keys =
      config.keyOrder.rest (length - 1) (ended.rounds.atStake round).keys := by
    have isTaken := RoundStore.iterate_paid_keys config round noOrders ⟨hasPoints, stored⟩
      (length - 1)
    rwa [← isStore] at isTaken
  rw [← Option.not_isSome_iff_eq_none, ← StorageMap.mem_keys, keys,
    config.keyOrder.rest_eq_empty (by omega)]
  exact Finset.notMem_empty account

end Cleanup

instance (length selected : Nat) (state : State AccountId Native)
    (action : Action AccountId Native) : Decidable (Guarded length selected state action) :=
  inferInstanceAs (Decidable (_ ∧ _))

/-- A genesis with two sequencers in one group and rounds of a given length. -/
def roundsOf (length : Nat) : ChainSpec Nat (Nat → Nat) :=
  { pairGenesis with blocksPerRound := length }

/-- A sequencer has points in the first round, which ends. -/
def firstRound (length : Nat) : List (Action Nat (Nat → Nat)) :=
  [.nextBlock 0, .awardPoints 1 20] ++ List.replicate (length - 1) (.nextBlock 0)

/-- Steps of a run that is guarded for two sequencers. -/
def guardedRun (length : Nat) :
    State Nat (Nat → Nat) → List (Action Nat (Nat → Nat)) → Option (State Nat (Nat → Nat)) :=
  checkedRun (step mockRuntime) fun state action => decide (Guarded length 2 state action)

/-- What is seen at the end of the first round, and at the end of the third, which pays for
it. -/
def seenOfPayout (length : Nat) : Option (List Nat) :=
  ((genesis mockRuntime (roundsOf length)).bind fun start =>
    guardedRun length start (firstRound length)).bind fun ended =>
      (guardedRun length ended (List.replicate (2 * length) (.nextBlock 0))).map fun left =>
        [ended.rounds.round.current, ended.rounds.round.first, ended.blockNumber,
          ended.rounds.points 1, (ended.rounds.atStake 1).keys.card, left.rounds.round.current,
          left.rounds.round.first, left.blockNumber, left.rounds.points 1]

theorem exists_of_seenOfPayout {length points snapshots remaining : Nat}
    (seen : seenOfPayout length =
      some [2, length, length, points, snapshots, 4, 3 * length, 3 * length, remaining]) :
    ∃ ended left, Reached mockRuntime (roundsOf length) (Guarded length 2) ended ∧
      JustEnded 1 ended ∧ Reaches (step mockRuntime) (Guarded length 2) ended left ∧
      JustEnded (1 + mockRuntime.rewardPaymentDelay) left ∧
      ended.rounds.points 1 = points ∧ (ended.rounds.atStake 1).keys.card = snapshots ∧
      left.rounds.points 1 = remaining := by
  obtain ⟨ended, isPlayed, shown⟩ := Option.bind_eq_some_iff.mp seen
  obtain ⟨left, continued, shown⟩ := Option.map_eq_some_iff.mp shown
  simp only [List.cons.injEq, and_true] at shown
  obtain ⟨isSecond, begins, number, hasPoints, isStaked, isFourth, leaves, lastNumber, isLeft⟩ :=
    shown
  have reached : Reached mockRuntime (roundsOf length) (Guarded length 2) ended :=
    Reached.of_checked (fun _ _ => of_decide_eq_true) isPlayed
  have reaches : Reaches (step mockRuntime) (Guarded length 2) ended left :=
    Reaches.start.of_checked (fun _ _ => of_decide_eq_true) continued
  exact ⟨ended, left, reached, ⟨isSecond, begins.trans number.symm⟩, reaches,
    ⟨isFourth, leaves.trans lastNumber.symm⟩, hasPoints, isStaked, isLeft⟩

/-- A round of five blocks pays two sequencers and cleans up. -/
theorem cleaned_up_iff_five :
    ∃ ended left, Reached mockRuntime (roundsOf 5) (Guarded 5 2) ended ∧
      (ended.rounds.atStake 1).keys.card = 2 ∧ ended.rounds.points 1 = 20 ∧
      Reaches (step mockRuntime) (Guarded 5 2) ended left ∧
      JustEnded (1 + mockRuntime.rewardPaymentDelay) left ∧ CleanedUp left.rounds 1 := by
  obtain ⟨ended, left, reached, justEnded, reaches, leaves, points, isStaked, _⟩ :=
    exists_of_seenOfPayout
      (show seenOfPayout 5 = some [2, 5, 5, 20, 2, 4, 15, 15, 0] by decide +kernel)
  have hasPoints : ended.rounds.points 1 ≠ 0 := by
    rw [points]
    decide
  obtain ⟨_, cleaned, _⟩ := cleaned_up_iff (by decide) reached justEnded hasPoints reaches leaves
  refine ⟨ended, left, reached, isStaked, points, reaches, leaves, cleaned.mpr ?_⟩
  rw [isStaked]
  decide

/-- A round of three blocks pays two sequencers and has no block left to clean up. -/
theorem not_cleaned_up :
    1 ≤ mockRuntime.rewardPaymentDelay ∧
      ∃ ended left, Reached mockRuntime (roundsOf 3) (Guarded 3 2) ended ∧
        JustEnded 1 ended ∧ 0 < ended.rounds.points 1 ∧
        Reaches (step mockRuntime) (Guarded 3 2) ended left ∧
        JustEnded (1 + mockRuntime.rewardPaymentDelay) left ∧ ¬CleanedUp left.rounds 1 := by
  obtain ⟨ended, left, reached, justEnded, reaches, leaves, points, _, isLeft⟩ :=
    exists_of_seenOfPayout
      (show seenOfPayout 3 = some [2, 3, 3, 20, 2, 4, 9, 9, 20] by decide +kernel)
  refine ⟨by decide, ended, left, reached, justEnded, by omega, reaches, leaves, ?_⟩
  intro cleaned
  rw [cleaned.points] at isLeft
  cases isLeft

end Popsicle
