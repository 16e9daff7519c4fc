import Popsicle.Inactivity
import Popsicle.Pace

/-!
# Reports that look far back

A runtime may let reports look at more rounds than payouts wait for.  On a chain that keeps
pace nothing is left then of the oldest of these rounds, unless nobody got any points in them,
and so there is no reporting of inactive sequencers while others are active.
-/

namespace Popsicle

open Foundation Exec Keyed

variable {AccountId Native : Type} [LinearOrder AccountId] {config : Config AccountId Native}
  {spec : ChainSpec AccountId Native} {state ended : State AccountId Native} {round : Nat}

/-- A round still shows a sequencer as inactive: it was, its payout has not taken it off, and a
payout that is over had nothing to pay. -/
structure ShowsInactive (config : Config AccountId Native) (round : Nat)
    (ended state : State AccountId Native) (sequencer : AccountId) : Prop where
  inactive : ended.rounds.inactiveIn sequencer round = true
  unpaid : round + config.rewardPaymentDelay = state.rounds.round.current →
    ((state.rounds.atStake round).get sequencer).isSome = true
  pointless : round + config.rewardPaymentDelay < state.rounds.round.current →
    ended.rounds.points round = 0

theorem Paced.inactiveIn_iff (paced : Paced config spec)
    (history : EndedBefore config spec round ended state) (sequencer : AccountId) :
    state.rounds.inactiveIn sequencer round = true ↔
      ShowsInactive config round ended state sequencer := by
  rw [history.inactiveIn_iff sequencer]
  constructor
  · rintro ⟨inactive, stored⟩
    refine ⟨inactive, fun _ => stored, fun isOver => ?_⟩
    by_contra hasPoints
    rw [(paced.paidOut history hasPoints isOver).cleaned.atStake sequencer] at stored
    cases stored
  · rintro ⟨inactive, unpaid, pointless⟩
    refine ⟨inactive, ?_⟩
    rcases lt_trichotomy (round + config.rewardPaymentDelay) state.rounds.round.current with
      isOver | isDue | isEarly
    · rw [(history.unrewarded (pointless isOver)).1]
      exact (Bool.and_eq_true _ _ ▸ inactive).1
    · exact unpaid isDue
    · exact history.stored isEarly inactive

/-- On a chain that keeps pace a report succeeds if and only if every round it looks at still
shows the sequencer as inactive; so nobody can be reported while a round is looked at whose
payout is over and had something to pay. -/
theorem hindsight_iff (paced : Paced config spec) (reachable : Reachable config spec state)
    (reports : ReportsOpen config state) (who sequencer : AccountId) :
    Succeeds config state (.signed who) (.notifyInactiveSequencer sequencer) ↔
      ∀ round, Checked config state round → ∀ ended, EndedBefore config spec round ended state →
        ShowsInactive config round ended state sequencer := by
  rw [succeeds_notify_iff reachable.sound reports who sequencer]
  refine forall_congr' fun round => forall_congr' fun checked => ?_
  constructor
  · exact fun shown ended history => (paced.inactiveIn_iff history sequencer).mp shown
  · intro shows
    have late := reports.late
    have isChecked := checked.1
    obtain ⟨ended, history⟩ := reachable.exists_ended (show 1 ≤ round by omega) checked.2
    exact (paced.inactiveIn_iff history sequencer).mpr (shows ended history)

/-- A runtime that keeps pace, with reports that look at more rounds than payouts wait for. -/
def farSighted : Config Nat (Nat → Nat) := { pacedRuntime with maxOfflineRounds := 3 }

/-- What is seen when the second round has ended, in which one of two sequencers has got all
the points, and at the beginning of the fifth. -/
def farSightedRun : Option (List Nat × List Bool) :=
  (played farSighted pairGenesis ([.nextBlock 0, .extrinsic .root (.enableMarkingOffline true)] ++
      List.replicate 4 (.nextBlock 0) ++ [.awardPoints 2 20] ++
      List.replicate 5 (.nextBlock 0))).bind fun ended =>
    (run (step farSighted) ended (List.replicate 10 (.nextBlock 0))).map fun state =>
      ([ended.rounds.round.current, ended.rounds.round.first, ended.blockNumber,
          ended.rounds.points 2, state.rounds.round.current, state.groups.groupSize,
          state.groups.groupNumber, state.rounds.selectedCandidates.length],
        [state.rounds.enableMarkingOffline, state.rounds.inactiveIn 1 3,
          state.rounds.inactiveIn 1 4])

/-- The other one cannot be reported three rounds later, although it never got any points. -/
theorem hindsight_iff_pair :
    ∃ ended state, EndedBefore farSighted pairGenesis 2 ended state ∧
      ended.rounds.points 2 = 20 ∧ ReportsOpen farSighted state ∧
      state.rounds.inactiveIn 1 3 = true ∧ state.rounds.inactiveIn 1 4 = true ∧
      ¬Succeeds farSighted state (.signed 4) (.notifyInactiveSequencer 1) := by
  obtain ⟨ended, isPlayed, continued⟩ := Option.bind_eq_some_iff.mp
    (show farSightedRun = some ([3, 10, 10, 20, 5, 2, 1, 2], [true, true, true])
      by decide +kernel)
  obtain ⟨state, taken, seen⟩ := Option.map_eq_some_iff.mp continued
  simp only [Prod.mk.injEq, List.cons.injEq, and_true] at seen
  obtain ⟨⟨isNext, begins, number, points, current, groupSize, groupNumber, selected⟩, enabled,
    third, fourth⟩ := seen
  have admitted : ∀ state : State Nat (Nat → Nat), ∀ action ∈ List.replicate 10
      (Action.nextBlock 0 : Action Nat (Nat → Nat)), True := fun _ _ _ => trivial
  have reaches : Reaches (step farSighted) (fun _ _ => True) ended state :=
    Reaches.start.append (admitted_of_forall admitted ended) taken
  have reachable : Reachable farSighted pairGenesis ended := Reached.of_played_any isPlayed
  have history : EndedBefore farSighted pairGenesis 2 ended state :=
    ⟨reachable, ⟨isNext, begins.trans number.symm⟩, reaches⟩
  have paced : Paced farSighted pairGenesis :=
    ⟨by decide, by decide, by decide, by decide, by decide⟩
  have reports : ReportsOpen farSighted state := by
    refine ⟨enabled, ?_, ?_⟩
    · unfold Crowded Overflows Groups.toSelect
      rw [groupSize, groupNumber, selected]
      decide
    · rw [current]
      decide
  refine ⟨ended, state, history, points, reports, third, fourth, fun succeeds => ?_⟩
  have shows := (hindsight_iff paced (reachable.later reaches) reports 4 1).mp succeeds
  have checked : Checked farSighted state 2 := by
    unfold Checked
    rw [current]
    decide
  have pointless := (shows 2 checked ended history).pointless (by rw [current]; decide)
  rw [points] at pointless
  cases pointless

end Popsicle
