import Popsicle.Announcements
import Popsicle.Cleanup
import Popsicle.Halting

/-!
# Chains that keep pace

The constants of a runtime can give every round more blocks than there can be candidates, and
more than it takes to come to its snapshot.  On such a chain the defects that need a short
round do not show: no snapshot is missed, and every payout ends in the round it is made in.
-/

namespace Popsicle

open Foundation Exec Keyed

variable {AccountId Native : Type} [LinearOrder AccountId] {config : Config AccountId Native}
  {spec : ChainSpec AccountId Native} {before after state : State AccountId Native}

/-- The constants of a runtime and its genesis give every round the blocks that it needs: one
that starts it, one for each candidate there can be, and one that finds nobody left. -/
structure Paced (config : Config AccountId Native) (spec : ChainSpec AccountId Native) : Prop where
  delay : 1 ≤ config.rewardPaymentDelay
  roomy : config.maxCandidates + 1 < config.minBlocksPerRound
  initial : config.minBlocksPerRound ≤ spec.blocksPerRound
  afterGenesis : 0 < spec.snapshotTimePoint
  inTime : spec.snapshotTimePoint < config.minBlocksPerRound

section Runs

variable {admits : State AccountId Native → Action AccountId Native → Prop}

/-! ## The length of rounds -/

/-- Rounds are never shorter than the runtime allows, if the first one is not. -/
theorem Reached.minBlocksPerRound_le (reached : Reached config spec admits state)
    (initial : config.minBlocksPerRound ≤ spec.blocksPerRound) :
    config.minBlocksPerRound ≤ state.rounds.round.length := by
  let holds : State AccountId Native → Prop := fun state =>
    config.minBlocksPerRound ≤ state.rounds.round.length
  suffices held : holds state from held
  refine reached.chain (fun state action _ => allows_any state action) ?_ ?_
  · rintro stakes start ⟨rounds, selection, rfl⟩
    exact initial
  · intro before action after reachedBefore atLeast _ transition
    cases transition with
    | update update =>
        cases update with
        | length _ accepted => exact accepted
        | stakes | commission | marking | groups => exact atLeast
    | awards => exact atLeast
    | block parentHash block =>
        have isRound := block.clock.isRound
        dsimp only [holds]
        rw [isRound, before.openedRound_length]
        exact atLeast

/-- Every round has at least the blocks that the runtime prescribes. -/
theorem Reached.spaced (reached : Reached config spec admits state)
    (initial : config.minBlocksPerRound ≤ spec.blocksPerRound) :
    OnTime spec.snapshotTimePoint (fun first next => first + config.minBlocksPerRound ≤ next)
      state := by
  apply reached.onTime
  intro before action reachedBefore _
  cases action with
  | nextBlock parentHash =>
      intro due
      have atLeast := reachedBefore.minBlocksPerRound_le initial
      have begun := reachedBefore.onTime_any.begun
      simp only [RoundInfo.shouldUpdate, decide_eq_true_eq] at due
      omega
  | _ => trivial

/-- On a chain that keeps pace a round that is over has had its snapshot. -/
theorem Paced.completed (paced : Paced config spec) (reached : Reached config spec admits state)
    {round first next : Nat} {between : List RoundEvent}
    (completed : Completed state.rounds.events round first next between) :
    first + config.minBlocksPerRound ≤ next ∧ between = [.candidatesSelected (round + 1)] := by
  obtain ⟨earlier, later, isLog⟩ := completed
  obtain ⟨isBetween, isLong⟩ := (reached.spaced paced.initial).logged.between isLog
  have inTime := paced.inTime
  have afterGenesis := paced.afterGenesis
  have isPassed : passed spec.snapshotTimePoint first next = true :=
    passed_iff.mpr ⟨by omega, by omega⟩
  rw [isPassed] at isBetween
  exact ⟨isLong, isBetween⟩

/-! ## The size of snapshots -/

theorem Sound.limited (sound : Sound config state.stakes) :
    Limited config.maxCandidates state :=
  fun _ members _ => members.length_le.trans (by simpa using sound.pool.bounded)

theorem Reached.sized_maxCandidates (reached : Reached config spec admits state) :
    Sized config.maxCandidates state.rounds := by
  obtain ⟨start, built, reaches⟩ := reached
  have begins : Reachable config spec start := ⟨start, built, .start⟩
  have initial : Sized config.maxCandidates start.rounds := by
    obtain ⟨stakes, sound, rounds, selection, rfl⟩ := exists_started built
    have nothing : Sized config.maxCandidates (spec.initial : State AccountId Native).rounds :=
      fun _ => Nat.zero_le _
    exact selection.sized nothing (Sound.limited sound) fun _ => rfl
  have kept : ∀ before action after, Reachable config spec before →
      Sized config.maxCandidates before.rounds → admits before action →
      step config before action = some after → Sized config.maxCandidates after.rounds := by
    intro before action after reachable sized _ taken
    cases reachable.transition taken with
    | update update => cases update <;> exact sized
    | awards => exact sized
    | block parentHash block => exact sized.block (Sound.limited reachable.sound) reachable block
  exact (begins.along reaches kept initial).2

/-! ## Payouts -/

/-- What is owed for a round when it ends is paid, nothing else is, and nothing is left of the
payout. -/
structure PaidOut (round : Nat) (ended later : Rounds AccountId) : Prop where
  cleaned : CleanedUp later round
  once : ∀ sequencer, later.timesPaid round sequencer = 1 ↔ ended.Owes round sequencer
  atMost : ∀ sequencer, later.timesPaid round sequencer ≤ 1

/-- On a chain that keeps pace a payout is over when the round is that it is made in. -/
theorem Paced.paidOut (paced : Paced config spec) {round : Nat}
    {ended later : State AccountId Native}
    (history : EndedBefore config spec round ended later)
    (hasPoints : ended.rounds.points round ≠ 0)
    (isOver : round + config.rewardPaymentDelay < later.rounds.round.current) :
    PaidOut round ended.rounds later.rounds := by
  have reachable := history.reachable.later history.reaches
  have sized := history.reachable.sized_maxCandidates round
  have roomy := paced.roomy
  obtain ⟨blocks, elapsed, isStore⟩ := history.elapsed paced.delay
  have enough : (ended.rounds.atStake round).keys.card < blocks := by
    rcases elapsed with ⟨early, _⟩ | ⟨isDue, _⟩ | ⟨_, first, next, between, completed, isBlocks⟩
    · omega
    · omega
    · obtain ⟨_, _, isLog⟩ := completed
      have isLong := ((reachable.spaced paced.initial).logged.between isLog).2
      omega
  obtain ⟨noOrders, prepared⟩ := history.reachable.prepared round history.justEnded
  obtain ⟨payoutInfo, _, stored⟩ := prepared hasPoints
  have cleaned := (cleanedUp_iff_of_iterate noOrders hasPoints stored isStore).mpr enough
  obtain ⟨paying, _⟩ := Paying.iterate noOrders ⟨hasPoints, stored⟩ round blocks
  rw [← isStore] at paying
  refine ⟨cleaned, fun sequencer => ?_, fun sequencer => ?_⟩
  · rw [((reachable.filed round).timesPaid sequencer).2, paying.ordered]
    have isOff : sequencer ∉ (later.rounds.store round).atStake.keys := by
      intro isKey
      have isSome : ((later.rounds.atStake round).get sequencer).isSome = true :=
        (StorageMap.mem_keys _ sequencer).mp isKey
      rw [cleaned.atStake sequencer] at isSome
      cases isSome
    have isKey : sequencer ∈ (ended.rounds.store round).atStake.keys ↔
        ((ended.rounds.atStake round).get sequencer).isSome = true :=
      StorageMap.mem_keys _ sequencer
    rw [isKey]
    exact ⟨fun ordered => ⟨ordered.1, ordered.2.2⟩, fun owes => ⟨owes.1, isOff, owes.2⟩⟩
  · exact ((reachable.filed round).timesPaid sequencer).1

theorem RoundStore.iterate_paid_of_zero {start : RoundStore AccountId} (noPoints : start.points = 0)
    (round blocks : Nat) :
    ((RoundStore.paid config round)^[blocks] start).atStake = start.atStake ∧
      ((RoundStore.paid config round)^[blocks] start).orders = start.orders := by
  let holds : RoundStore AccountId → Prop := fun store =>
    store.points = 0 ∧ store.atStake = start.atStake ∧ store.orders = start.orders
  suffices held : holds ((RoundStore.paid config round)^[blocks] start) from held.2
  induction blocks with
  | zero => exact ⟨noPoints, rfl, rfl⟩
  | succ blocks ih =>
      rw [Function.iterate_succ_apply']
      refine RoundStore.paid_kept ih (fun _ => ⟨rfl, ih.2⟩) ?_
      exact fun _ _ _ _ counted => absurd ih.1 counted

/-- Nobody is paid for a round without points, and its snapshots stay for ever. -/
theorem EndedBefore.unrewarded {round : Nat} {ended later : State AccountId Native}
    (history : EndedBefore config spec round ended later)
    (noPoints : ended.rounds.points round = 0) :
    later.rounds.atStake round = ended.rounds.atStake round ∧
      ∀ sequencer, later.rounds.timesPaid round sequencer = 0 := by
  have past : round < ended.rounds.round.current := by
    rw [history.justEnded.next]
    exact Nat.lt_succ_self _
  obtain ⟨_, _, blocks, isStore⟩ := history.reachable.past history.reaches past
  obtain ⟨noOrders, _⟩ := history.reachable.prepared round history.justEnded
  have isPointless : (ended.rounds.store round).points = 0 := noPoints
  obtain ⟨atStake, orders⟩ := RoundStore.iterate_paid_of_zero isPointless round blocks
  rw [← isStore] at atStake orders
  refine ⟨atStake, fun sequencer => ?_⟩
  rw [Rounds.timesPaid_eq, orders, noOrders]
  rfl

/-- On a chain that keeps pace every round that is over had its snapshot for the next one, and
every payout whose round is over has paid what was owed, once, and nothing is left of it.
Only the snapshots of rounds in which nobody got points are never removed. -/
theorem keeps_pace (paced : Paced config spec) (reachable : Reachable config spec state) :
    (∀ round first next between, Completed state.rounds.events round first next between →
      first + config.minBlocksPerRound ≤ next ∧ between = [.candidatesSelected (round + 1)]) ∧
    ∀ round, 1 ≤ round → round + config.rewardPaymentDelay < state.rounds.round.current →
      (∃ ended, EndedBefore config spec round ended state) ∧
      ∀ ended, EndedBefore config spec round ended state →
        (ended.rounds.points round ≠ 0 → PaidOut round ended.rounds state.rounds) ∧
        (ended.rounds.points round = 0 →
          state.rounds.atStake round = ended.rounds.atStake round ∧
            ∀ sequencer, state.rounds.timesPaid round sequencer = 0) := by
  refine ⟨fun _ _ _ _ completed => paced.completed reachable completed, ?_⟩
  intro round began isOver
  refine ⟨reachable.exists_ended began (by omega), ?_⟩
  exact fun ended history =>
    ⟨fun hasPoints => paced.paidOut history hasPoints isOver, history.unrewarded⟩

/-! ## Blocks without end -/

/-- Where the build checks the arithmetic, root asks for groups. -/
def Asking (config : Config AccountId Native) (_ : State AccountId Native)
    (action : Action AccountId Native) : Prop :=
  config.overflowChecks = true → AsksForGroups action

/-- On a chain that keeps pace every round is long enough for its snapshot. -/
theorem Paced.longEnough (paced : Paced config spec) (reached : Reached config spec admits state)
    (action : Action AccountId Native) : EndsRound (LongEnough spec) state action := by
  cases action with
  | nextBlock parentHash =>
      intro due
      have atLeast := reached.minBlocksPerRound_le paced.initial
      have begun := reached.onTime_any.begun
      have inTime := paced.inTime
      have afterGenesis := paced.afterGenesis
      simp only [RoundInfo.shouldUpdate, decide_eq_true_eq] at due
      exact ⟨by omega, by omega⟩
  | _ => trivial

theorem Paced.lively (paced : Paced config spec)
    (reached : Reached config spec (Asking config) state) :
    Reached config spec (Lively config spec) state := by
  obtain ⟨start, built, reaches⟩ := reached
  induction reaches with
  | start => exact ⟨start, built, .start⟩
  | next action _ asks taken ih => exact ih.next ⟨paced.longEnough ih action, asks⟩ taken

/-- A chain that keeps pace and has groups asked for never runs out of blocks. -/
theorem Paced.produces (paced : Paced config spec) (fit : MetricsFit config)
    (metered : Metered config spec.groupSize spec.groupNumber)
    (initial : config.overflowChecks = true → spec.groupNumber ≠ 0) (parentHashes : List Nat)
    (reached : Reached config spec (Asking config) state) :
    ∃ later, run (step config) state (parentHashes.map .nextBlock) = some later := by
  induction parentHashes generalizing state with
  | nil => exact ⟨state, rfl⟩
  | cons parentHash rest ih =>
      have lively := paced.lively reached
      have continues := mt (step_nextBlock_none_iff fit metered reached.reachable parentHash).mp
        (lively.not_halts initial (paced.longEnough reached (.nextBlock parentHash)))
      obtain ⟨after, taken⟩ := Option.ne_none_iff_exists'.mp continues
      have asks : Asking config state (.nextBlock parentHash) := fun _ => trivial
      obtain ⟨later, further⟩ := ih (reached.next asks taken)
      exact ⟨later, Option.bind_eq_some_iff.mpr ⟨after, taken, further⟩⟩

end Runs

/-- The mock runtime with room for two candidates, and rounds of at least four blocks. -/
def pacedRuntime : Config Nat (Nat → Nat) :=
  { mockRuntime with minBlocksPerRound := 4, maxCandidates := 2 }

/-- What is seen when the first round has ended, in which a sequencer has got points, and when
the third one has. -/
def pacedPayout : Option (List Nat) :=
  (played pacedRuntime pairGenesis (firstRound 5)).bind fun ended =>
    (run (step pacedRuntime) ended (List.replicate 10 (.nextBlock 0))).map fun later =>
      [ended.rounds.round.current, ended.rounds.round.first, ended.blockNumber,
        ended.rounds.points 1, later.rounds.round.current]

theorem keeps_pace_pair :
    ∃ ended later, EndedBefore pacedRuntime pairGenesis 1 ended later ∧
      ended.rounds.points 1 = 20 ∧ PaidOut 1 ended.rounds later.rounds := by
  obtain ⟨ended, isPlayed, continued⟩ := Option.bind_eq_some_iff.mp
    (show pacedPayout = some [2, 5, 5, 20, 4] by decide +kernel)
  obtain ⟨later, taken, seen⟩ := Option.map_eq_some_iff.mp continued
  simp only [List.cons.injEq, and_true] at seen
  obtain ⟨isNext, begins, number, points, current⟩ := seen
  have admitted : ∀ state : State Nat (Nat → Nat), ∀ action ∈ List.replicate 10
      (Action.nextBlock 0 : Action Nat (Nat → Nat)), True := fun _ _ _ => trivial
  have reaches : Reaches (step pacedRuntime) (fun _ _ => True) ended later :=
    Reaches.start.append (admitted_of_forall admitted ended) taken
  have reachable : Reachable pacedRuntime pairGenesis ended := Reached.of_played_any isPlayed
  have history : EndedBefore pacedRuntime pairGenesis 1 ended later :=
    ⟨reachable, ⟨isNext, begins.trans number.symm⟩, reaches⟩
  have paced : Paced pacedRuntime pairGenesis :=
    ⟨by decide, by decide, by decide, by decide, by decide⟩
  have isOver : 1 + pacedRuntime.rewardPaymentDelay < later.rounds.round.current := by
    rw [current]
    decide
  have hasPoints : ended.rounds.points 1 ≠ 0 := by
    rw [points]
    decide
  obtain ⟨_, paidOut⟩ := (keeps_pace paced (reachable.later reaches)).2 1 (le_refl 1) isOver
  exact ⟨ended, later, history, points, (paidOut ended history).1 hasPoints⟩

end Popsicle
