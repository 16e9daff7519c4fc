import Popsicle.Stores

/-!
# Reports of inactive sequencers

A sequencer can be reported if it was selected for each of the last rounds and got no
points in any of them.  The report reads the entries of those rounds that the payouts
delete, so it is wrong about a sequencer that the payout of the oldest round has already
taken off.
-/

namespace Popsicle

open Foundation Exec Keyed

variable {AccountId Native : Type} [LinearOrder AccountId] {config : Config AccountId Native}
  {spec : ChainSpec AccountId Native} {state : State AccountId Native}

/-! ## What a report reads -/

/-- A completed round that a report looks at. -/
def Checked (config : Config AccountId Native) (state : State AccountId Native) (round : Nat) :
    Prop :=
  state.rounds.round.current ≤ round + config.maxOfflineRounds ∧ round < state.rounds.round.current

/-- More than two thirds of the sequencers that are to be selected are, as the code
computes it. -/
def Crowded (config : Config AccountId Native) (state : State AccountId Native) : Prop :=
  ¬Overflows config state.groups ∧
    ¬(config.overflowChecks = true ∧ u32Max < state.groups.toSelect * 2) ∧
    state.groups.toSelect * 2 % (u32Max + 1) < state.rounds.selectedCandidates.length * 3

/-- Reports are possible at all. -/
structure ReportsOpen (config : Config AccountId Native) (state : State AccountId Native) :
    Prop where
  enabled : state.rounds.enableMarkingOffline = true
  crowded : Crowded config state
  late : config.maxOfflineRounds < state.rounds.round.current

omit [LinearOrder AccountId] in
/-- The counter of a report reaches the bound if every round it looks at is counted. -/
theorem counted_iff (late : config.maxOfflineRounds < state.rounds.round.current)
    (inactive : Nat → Bool) :
    ((List.range' (state.rounds.round.current - config.maxOfflineRounds)
      (state.rounds.round.current - (state.rounds.round.current - config.maxOfflineRounds))).filter
        inactive).length = config.maxOfflineRounds ↔
      ∀ round, Checked config state round → inactive round = true := by
  have width : state.rounds.round.current - (state.rounds.round.current - config.maxOfflineRounds) =
      config.maxOfflineRounds := by
    omega
  rw [width]
  have all : ((List.range' (state.rounds.round.current - config.maxOfflineRounds)
      config.maxOfflineRounds).filter inactive).length = config.maxOfflineRounds ↔
      ∀ round ∈ List.range' (state.rounds.round.current - config.maxOfflineRounds)
        config.maxOfflineRounds, inactive round = true := by
    rw [← List.length_filter_eq_length_iff, List.length_range']
  rw [all]
  refine forall_congr' fun round => ?_
  have isChecked : round ∈ List.range' (state.rounds.round.current - config.maxOfflineRounds)
      config.maxOfflineRounds ↔ Checked config state round := by
    rw [List.mem_range'_1, Checked]
    omega
  rw [isChecked]

/-- A report succeeds if and only if the entries it reads are those of a sequencer that was
inactive. -/
theorem succeeds_notify_iff (sound : Sound config state.stakes) (reports : ReportsOpen config state)
    (who sequencer : AccountId) :
    Succeeds config state (.signed who) (.notifyInactiveSequencer sequencer) ↔
      ∀ round, Checked config state round → state.rounds.inactiveIn sequencer round = true := by
  have decided : (dispatch config (.signed who) (.notifyInactiveSequencer sequencer)).Ends state
      (fun _ _ => ∀ round, Checked config state round →
        state.rounds.inactiveIn sequencer round = true)
      (fun _ _ => ¬∀ round, Checked config state round →
        state.rounds.inactiveIn sequencer round = true) := by
    obtain ⟨enabled, ⟨fits, fitsTwice, crowded⟩, late⟩ := reports
    simp only [dispatch, chainCall, notifyInactiveSequencer, ensureSigned, ends_transactional,
      ends_bind, ends_read, ends_ensure, ends_pure, ends_totalSelected, ends_u32Result_nat,
      counted_iff late]
    refine ⟨fun _ => ⟨fun _ => ⟨fun _ => ⟨fun _ => ⟨fun _ => ⟨fun inactive => ?_, id⟩,
      fun isEarly => absurd late isEarly⟩, fun few => absurd crowded few⟩,
      fun overflows => absurd overflows fitsTwice⟩, fun overflows => absurd overflows fits⟩,
      fun disabled => absurd enabled disabled⟩
    have goesOffline : (goOfflineInner sequencer).Ends state.stakes
        (fun _ after => Settles config (fun _ => True) (fun _ => True) state.stakes after) _ :=
      ends_goOfflineInner sound sequencer
    simp only [onStakes, ends_discardError, ends_zoom]
    refine goesOffline.mono (fun _ _ _ => inactive) ?_
    rintro _ _ ⟨⟨reason, rfl⟩, _⟩
    exact ⟨fun _ _ => inactive, by rintro _ ⟨⟩⟩
  unfold Succeeds
  cases run : dispatch config (.signed who) (.notifyInactiveSequencer sequencer) state with
  | mk result last =>
      cases result with
      | error fault => exact iff_of_false (by rintro ⟨⟩) (decided.of_error run)
      | ok value => exact iff_of_true rfl (decided.of_ok run)

/-! ## What the payouts leave of it -/

/-- A sequencer has been taken off, or its entries are as before. -/
def Remains (sequencer : AccountId) (before after : RoundStore AccountId) : Prop :=
  after.atStake.get sequencer = none ∨
    after.atStake.get sequencer = before.atStake.get sequencer ∧
      after.awarded sequencer = before.awarded sequencer

theorem Remains.paid {sequencer : AccountId} {start store : RoundStore AccountId}
    (remains : Remains sequencer start store) (round : Nat) :
    Remains sequencer start (store.paid config round) := by
  refine RoundStore.paid_kept remains (fun _ => remains) ?_
  intro _ first _ _ _ _ _
  by_cases equal : sequencer = first
  · subst equal
    exact .inl (StorageMap.get_remove_self _ _)
  · unfold Remains RoundStore.awarded RoundStore.taken
    rw [StorageMap.get_remove_of_ne _ equal, StorageMap.get_remove_of_ne _ equal]
    exact remains

theorem Remains.iterate (sequencer : AccountId) (start : RoundStore AccountId)
    (round blocks : Nat) :
    Remains sequencer start ((RoundStore.paid config round)^[blocks] start) := by
  induction blocks with
  | zero => exact .inr ⟨rfl, rfl⟩
  | succ blocks ih =>
      rw [Function.iterate_succ_apply']
      exact ih.paid round

/-- The entries of a round that is over show a sequencer as inactive if and only if it was
when the round ended, and the payout has not taken it off. -/
theorem EndedBefore.inactiveIn_iff {round : Nat} {ended : State AccountId Native}
    (history : EndedBefore config spec round ended state) (sequencer : AccountId) :
    state.rounds.inactiveIn sequencer round = true ↔
      ended.rounds.inactiveIn sequencer round = true ∧
        ((state.rounds.atStake round).get sequencer).isSome = true := by
  have past : round < ended.rounds.round.current := by
    rw [history.justEnded.next]
    exact Nat.lt_succ_self _
  obtain ⟨_, _, blocks, isStore⟩ := history.reachable.past history.reaches past
  have entries : Remains sequencer (ended.rounds.store round) (state.rounds.store round) :=
    isStore ▸ Remains.iterate sequencer (ended.rounds.store round) round blocks
  change ((state.rounds.atStake round).get sequencer = none ∨
    (state.rounds.atStake round).get sequencer = (ended.rounds.atStake round).get sequencer ∧
      state.rounds.awarded round sequencer = ended.rounds.awarded round sequencer) at entries
  unfold Rounds.inactiveIn
  rcases entries with off | ⟨sameStake, samePoints⟩
  · simp [off]
  · rw [sameStake, samePoints]
    simp only [Bool.and_eq_true]
    tauto

/-- Every round that a report looks at had the sequencer in its snapshot and no points for
it when it ended. -/
def Inactive (config : Config AccountId Native) (state : State AccountId Native)
    (ended : Nat → State AccountId Native) (sequencer : AccountId) : Prop :=
  ∀ round, Checked config state round → (ended round).rounds.inactiveIn sequencer round = true

/-- The payout of the last round that a report looks at has not yet taken off a sequencer
that was inactive. -/
def Unpaid (config : Config AccountId Native) (state : State AccountId Native)
    (ended : Nat → State AccountId Native) (sequencer : AccountId) : Prop :=
  Inactive config state ended sequencer → ∀ round, Checked config state round →
    round + config.rewardPaymentDelay = state.rounds.round.current →
      ((state.rounds.atStake round).get sequencer).isSome = true

/-- Before its payout is due, the entries of a round are all there. -/
theorem EndedBefore.stored {round : Nat} {ended : State AccountId Native}
    (history : EndedBefore config spec round ended state) {sequencer : AccountId}
    (early : state.rounds.round.current < round + config.rewardPaymentDelay)
    (inactive : ended.rounds.inactiveIn sequencer round = true) :
    ((state.rounds.atStake round).get sequencer).isSome = true := by
  have past : round < ended.rounds.round.current := by
    rw [history.justEnded.next]
    exact Nat.lt_succ_self _
  have sameStake : state.rounds.atStake round = ended.rounds.atStake round :=
    congrArg RoundStore.atStake (history.reachable.untouched history.reaches past early)
  rw [sameStake]
  exact (Bool.and_eq_true _ _ ▸ inactive).1

/-- A report is right about a sequencer if and only if no payout has taken the sequencer
off before; so it is always right if the rounds it looks at are fewer than those that
payouts wait for.  Every state has such a history. -/
theorem reports_right_iff (bound : config.maxOfflineRounds ≤ config.rewardPaymentDelay)
    (reachable : Reachable config spec state) (reports : ReportsOpen config state) :
    (∃ ended : Nat → State AccountId Native, ∀ round, Checked config state round →
      EndedBefore config spec round (ended round) state) ∧
    ∀ ended : Nat → State AccountId Native,
      (∀ round, Checked config state round → EndedBefore config spec round (ended round) state) →
      ∀ who sequencer,
        ((Succeeds config state (.signed who) (.notifyInactiveSequencer sequencer) ↔
            Inactive config state ended sequencer) ↔ Unpaid config state ended sequencer) ∧
          (config.maxOfflineRounds < config.rewardPaymentDelay →
            (Succeeds config state (.signed who) (.notifyInactiveSequencer sequencer) ↔
              Inactive config state ended sequencer)) := by
  constructor
  · have exists' : ∀ round, ∃ ended, Checked config state round →
        EndedBefore config spec round ended state := by
      intro round
      by_cases checked : Checked config state round
      · have began : 1 ≤ round := by
          have late := reports.late
          have isChecked := checked.1
          omega
        obtain ⟨ended, history⟩ := reachable.exists_ended began checked.2
        exact ⟨ended, fun _ => history⟩
      · exact ⟨state, fun isChecked => absurd isChecked checked⟩
    exact Classical.skolem.mp exists'
  · intro ended history who sequencer
    have exactly : (Succeeds config state (.signed who) (.notifyInactiveSequencer sequencer) ↔
        Inactive config state ended sequencer) ↔ Unpaid config state ended sequencer := by
      rw [succeeds_notify_iff reachable.sound reports who sequencer]
      constructor
      · intro right inactive round checked _
        exact (((history round checked).inactiveIn_iff sequencer).mp
          (right.mpr inactive round checked)).2
      · intro unpaid
        constructor
        · intro inactive round checked
          exact (((history round checked).inactiveIn_iff sequencer).mp (inactive round checked)).1
        · intro inactive round checked
          refine ((history round checked).inactiveIn_iff sequencer).mpr
            ⟨inactive round checked, ?_⟩
          by_cases isDue : round + config.rewardPaymentDelay = state.rounds.round.current
          · exact unpaid inactive round checked isDue
          · have early : state.rounds.round.current < round + config.rewardPaymentDelay := by
              have isChecked := checked.1
              omega
            exact (history round checked).stored early (inactive round checked)
    refine ⟨exactly, fun fewer => exactly.mpr ?_⟩
    intro _ round checked isDue
    have isChecked := checked.1
    omega

/-- The mock runtime with reports that look at as many rounds as payouts wait for. -/
def lateReports : Config Nat (Nat → Nat) := { mockRuntime with maxOfflineRounds := 2 }

/-- What is seen when one of two sequencers gets all the points: at the ends of the first
two rounds, and in the first block of payouts. -/
def reportRun : Option (List Nat × List Bool) :=
  (played lateReports pairGenesis ([.nextBlock 0, .awardPoints 2 20,
      .extrinsic .root (.enableMarkingOffline true)] ++ List.replicate 4 (.nextBlock 0))).bind
    fun first => (run (step lateReports) first (List.replicate 5 (.nextBlock 0))).bind
      fun second => (step lateReports second (.nextBlock 0)).map fun state =>
        ([first.rounds.round.current, first.rounds.round.first, first.blockNumber,
            second.rounds.round.current, second.rounds.round.first, second.blockNumber,
            state.rounds.round.current, state.groups.groupSize, state.groups.groupNumber,
            state.rounds.selectedCandidates.length],
          [first.rounds.inactiveIn 1 1, second.rounds.inactiveIn 1 2,
            state.rounds.enableMarkingOffline,
            (dispatch lateReports (.signed 4) (.notifyInactiveSequencer 1) state).1.isOk])

/-- A sequencer without points in two rounds is taken off the payout of the first, and
then it cannot be reported. -/
theorem exists_report :
    ∃ (ended : Nat → State Nat (Nat → Nat)) (state : State Nat (Nat → Nat)),
      Reachable lateReports pairGenesis state ∧ ReportsOpen lateReports state ∧
      (∀ round, Checked lateReports state round →
        EndedBefore lateReports pairGenesis round (ended round) state) ∧
      Inactive lateReports state ended 1 ∧
      ¬Succeeds lateReports state (.signed 4) (.notifyInactiveSequencer 1) := by
  obtain ⟨first, isPlayed, shown⟩ := Option.bind_eq_some_iff.mp
    (show reportRun = some ([2, 5, 5, 3, 10, 10, 3, 2, 1, 2], [true, true, true, false])
      by decide +kernel)
  obtain ⟨second, continued, shown⟩ := Option.bind_eq_some_iff.mp shown
  obtain ⟨state, last, shown⟩ := Option.map_eq_some_iff.mp shown
  simp only [Prod.mk.injEq, List.cons.injEq, and_true] at shown
  obtain ⟨⟨firstNext, firstBegins, firstNumber, secondNext, secondBegins, secondNumber, current,
    groupSize, groupNumber, selected⟩, firstInactive, secondInactive, enabled, fails⟩ := shown
  have admitted : ∀ state : State Nat (Nat → Nat), ∀ action ∈ List.replicate 5
      (Action.nextBlock 0 : Action Nat (Nat → Nat)), True := fun _ _ _ => trivial
  have toFirst := Reached.of_played_any isPlayed
  have fromFirst : Reaches (step lateReports) (fun _ _ => True) first second :=
    Reaches.start.append (admitted_of_forall admitted first) continued
  have fromSecond : Reaches (step lateReports) (fun _ _ => True) second state :=
    .next _ .start trivial last
  have toSecond := toFirst.later fromFirst
  have firstHistory : EndedBefore lateReports pairGenesis 1 first state :=
    ⟨toFirst, ⟨firstNext, firstBegins.trans firstNumber.symm⟩, fromFirst.next _ trivial last⟩
  have secondHistory : EndedBefore lateReports pairGenesis 2 second state :=
    ⟨toSecond, ⟨secondNext, secondBegins.trans secondNumber.symm⟩, fromSecond⟩
  have isChecked : ∀ round, Checked lateReports state round → round = 1 ∨ round = 2 := by
    intro round checked
    have bounds : state.rounds.round.current ≤ round + 2 ∧ round < state.rounds.round.current :=
      checked
    omega
  refine ⟨fun round => if round = 1 then first else second, state, toSecond.later fromSecond,
    ⟨enabled, ?_, ?_⟩, ?_, ?_, ?_⟩
  · unfold Crowded Overflows Groups.toSelect
    rw [groupSize, groupNumber, selected]
    decide
  · rw [current]
    decide
  · intro round checked
    rcases isChecked round checked with rfl | rfl
    · exact firstHistory
    · exact secondHistory
  · intro round checked
    rcases isChecked round checked with rfl | rfl
    · exact firstInactive
    · exact secondInactive
  · intro succeeds
    rw [isOk_iff.mpr succeeds] at fails
    cases fails

/-- A report of an inactive sequencer fails, although the rounds it looks at are no more
than those that payouts wait for. -/
theorem report_wrong :
    lateReports.maxOfflineRounds ≤ lateReports.rewardPaymentDelay ∧
      ∃ (ended : Nat → State Nat (Nat → Nat)) (state : State Nat (Nat → Nat)),
        Reachable lateReports pairGenesis state ∧ ReportsOpen lateReports state ∧
        (∀ round, Checked lateReports state round →
          EndedBefore lateReports pairGenesis round (ended round) state) ∧
        ¬(Succeeds lateReports state (.signed 4) (.notifyInactiveSequencer 1) ↔
          Inactive lateReports state ended 1) := by
  obtain ⟨ended, state, reachable, reports, history, inactive, fails⟩ := exists_report
  exact ⟨le_refl _, ended, state, reachable, reports, history,
    fun right => fails (right.mpr inactive)⟩

theorem reports_right_iff_late :
    ∃ (ended : Nat → State Nat (Nat → Nat)) (state : State Nat (Nat → Nat)),
      ReportsOpen lateReports state ∧ Inactive lateReports state ended 1 ∧
        ¬Unpaid lateReports state ended 1 := by
  obtain ⟨ended, state, reachable, reports, history, inactive, fails⟩ := exists_report
  have decided := ((reports_right_iff (le_refl _) reachable reports).2 ended history 4 1).1
  exact ⟨ended, state, reports, inactive, fun unpaid =>
    fails ((decided.mpr unpaid).mpr inactive)⟩

end Popsicle
