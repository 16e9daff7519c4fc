import Popsicle.Container
import Popsicle.GroupRuns
import Popsicle.Regrouping
import Popsicle.Stores

/-!
# When the next round starts

A grouping announces the first block of the next round by the length that the current
round has then.  The round really ends by the length that it has later, so the two only
meet if the length of the round never matters before the announced block.
-/

namespace Popsicle

open Foundation Exec

variable {AccountId Native : Type} [LinearOrder AccountId] {config : Config AccountId Native}
  {spec : ChainSpec AccountId Native} {before after state : State AccountId Native}

/-! ## What is left alone -/

/-- The announcement of the next round is the same unless it is forced, and a round has some
length still. -/
structure Steady (unforced : Prop) (before after : State AccountId Native) : Prop where
  nextRound : unforced → after.groups.nextRound = before.groups.nextRound
  length : 0 < before.rounds.round.length → 0 < after.rounds.round.length

/-- Between blocks the announcement of the next round stays as it is. -/
theorem Steady.of_step {action : Action AccountId Native}
    (isBetween : ∀ parentHash, action ≠ .nextBlock parentHash)
    (taken : step config before action = some after) : Steady (Unforced action) before after := by
  cases meanwhile_of_step isBetween taken with
  | same groups length => exact ⟨fun _ => congrArg Groups.nextRound groups, length⟩
  | acts _ _ nextRound rounds => exact ⟨nextRound, rounds ▸ id⟩

/-! ## Rounds that have a length -/

theorem blocksPerRound_pos {start : State AccountId Native}
    (built : genesis config spec = some start) : 0 < spec.blocksPerRound := by
  have builds : (buildGenesis config spec).Ends spec.initial
      (fun _ _ => 0 < spec.blocksPerRound) fun _ _ => True := by
    rw [buildGenesis, ends_bind, ends_ensure]
    exact ⟨fun positive => .of_forall (fun _ _ => positive) fun _ _ => trivial, fun _ => trivial⟩
  unfold genesis at built
  split at built
  next equation => exact builds.of_ok equation
  next => cases built

section Run

variable {admits : State AccountId Native → Action AccountId Native → Prop} {parentHash : Nat}

theorem Reached.nextBlock (reached : Reached config spec admits before)
    (taken : step config before (.nextBlock parentHash) = some after) : NextBlock before after :=
  (reached.reachable.block (step_nextBlock_iff.mp taken)).clock

theorem Reached.sameClock (reached : Reached config spec admits before)
    {action : Action AccountId Native} (isBetween : ∀ parentHash, action ≠ .nextBlock parentHash)
    (taken : step config before action = some after) : SameClock before after := by
  cases reached.advance taken 0 with
  | keeps clock | awards _ _ _ clock => exact clock
  | opens parentHash isBlock => exact absurd isBlock (isBetween parentHash)

omit [LinearOrder AccountId] in
theorem State.openedRound_length (state : State AccountId Native) :
    state.openedRound.length = state.rounds.round.length := by
  unfold State.openedRound
  split <;> rfl

theorem Reached.length_pos (reached : Reached config spec admits state) :
    0 < state.rounds.round.length := by
  have kept : ∀ before action after, Reachable config spec before →
      0 < before.rounds.round.length → admits before action →
      step config before action = some after → 0 < after.rounds.round.length := by
    intro before action after reachable positive _ taken
    by_cases isBlock : ∃ parentHash, action = .nextBlock parentHash
    · obtain ⟨parentHash, rfl⟩ := isBlock
      rw [(reachable.nextBlock taken).isRound, before.openedRound_length]
      exact positive
    · exact (Steady.of_step (not_exists.mp isBlock) taken).length positive
  obtain ⟨start, built, reaches⟩ := reached
  have begins : Reachable config spec start := ⟨start, built, .start⟩
  have positive : 0 < start.rounds.round.length := by
    obtain ⟨_, _, rounds, _, rfl⟩ := exists_started built
    exact blocksPerRound_pos built
  exact (begins.along reaches kept positive).2

theorem Reached.ahead {later : State AccountId Native} (reachable : Reachable config spec state)
    (reaches : Reaches (step config) admits state later) :
    state.rounds.round.current ≤ later.rounds.round.current ∧
      state.blockNumber ≤ later.blockNumber := by
  have kept : ∀ before action after, Reachable config spec before →
      (state.rounds.round.current ≤ before.rounds.round.current ∧
        state.blockNumber ≤ before.blockNumber) → admits before action →
      step config before action = some after →
      state.rounds.round.current ≤ after.rounds.round.current ∧
        state.blockNumber ≤ after.blockNumber := by
    rintro before action after reached ⟨round, block⟩ _ taken
    rcases (reached.advance taken 0).clock with clock | clock
    · rw [clock.current, clock.number]
      exact ⟨round, block⟩
    · rw [clock.isRound, clock.number, before.openedRound_current]
      exact ⟨by omega, by omega⟩
  exact (reachable.along reaches kept ⟨le_refl _, le_refl _⟩).2

/-! ## Waiting for the announced block -/

/-- The next round has been announced, and there is no other grouping in the current one. -/
structure Awaits (start : Nat) (state : State AccountId Native) : Prop where
  nextRound : state.groups.nextRound = (start, state.rounds.round.current + 1)
  snapped : state.rounds.round.first + state.rounds.round.snapshotTimePoint ≤ state.blockNumber

/-- A grouping announces the next round by the length of the current one, for a block that
is still to come. -/
theorem Regroups.awaits (regroups : Regroups config before parentHash after)
    (reachable : Reachable config spec before) :
    Awaits (after.rounds.round.first + after.rounds.round.length) after ∧
      after.blockNumber < after.rounds.round.first + after.rounds.round.length := by
  obtain ⟨isOk, isDue, isFormed⟩ := regroups
  have block := reachable.block isOk
  have clock := block.clock
  have isGroups := block.groups
  have begun := reachable.onTime_any.begun
  have positive := reachable.length_pos
  rw [if_pos isDue] at isGroups
  have run : triggered config before parentHash after = (.ok (), after.groups) :=
    Prod.ext isFormed isGroups.symm
  obtain ⟨groupMembers, processorInfo, _, isAfter⟩ := (ends_triggerGroup _ _ _ _).of_ok run
  rw [clock.isRound]
  refine ⟨⟨?_, ?_⟩, ?_⟩
  · rw [isAfter, clock.isRound]
  · simp only [RoundInfo.shouldSnapshot, decide_eq_true_eq] at isDue
    have opened : before.openedRound.first ≤ before.blockNumber + 1 := by
      unfold State.openedRound
      split
      next => exact le_refl _
      next => exact begun.trans (Nat.le_succ _)
    rw [clock.isRound, clock.number]
    omega
  · rw [clock.number]
    unfold State.openedRound
    split
    next => simp only [RoundInfo.update]; omega
    next waits =>
      simp only [RoundInfo.shouldUpdate, decide_eq_true_eq] at waits
      omega

theorem Awaits.block {start : Nat} (awaits : Awaits start before)
    (reachable : Reachable config spec before)
    (taken : step config before (.nextBlock parentHash) = some after)
    (inRound : after.rounds.round.current = before.rounds.round.current) :
    before.rounds.round.shouldUpdate (before.blockNumber + 1) = false ∧
      after.rounds.round = before.rounds.round ∧ Awaits start after := by
  have block := reachable.block (step_nextBlock_iff.mp taken)
  have clock := block.clock
  have isGroups := block.groups
  have waits : before.rounds.round.shouldUpdate (before.blockNumber + 1) = false := by
    rw [clock.isRound, before.openedRound_current] at inRound
    rw [Bool.eq_false_iff]
    intro due
    rw [if_pos due] at inRound
    omega
  have isRound : before.openedRound = before.rounds.round := if_neg (by simp [waits])
  have snapped := awaits.snapped
  have noSnapshot : ¬before.openedRound.shouldSnapshot (before.blockNumber + 1) = true := by
    rw [isRound]
    simp only [RoundInfo.shouldSnapshot, decide_eq_true_eq]
    omega
  rw [if_neg noSnapshot] at isGroups
  have sameRound := clock.isRound.trans isRound
  refine ⟨waits, sameRound, ?_, ?_⟩
  · rw [isGroups, sameRound]
    exact awaits.nextRound
  · rw [sameRound, clock.number]
    omega

theorem Awaits.between {start : Nat} (awaits : Awaits start before)
    (reachable : Reachable config spec before) {action : Action AccountId Native}
    (unforced : Unforced action) (isBetween : ∀ parentHash, action ≠ .nextBlock parentHash)
    (taken : step config before action = some after) : Awaits start after := by
  have clock := reachable.sameClock isBetween taken
  have steady := Steady.of_step isBetween taken
  have timePoint : after.rounds.round.snapshotTimePoint = before.rounds.round.snapshotTimePoint :=
    (reachable.next trivial taken).onTime_any.timePoint.trans reachable.onTime_any.timePoint.symm
  refine ⟨?_, ?_⟩
  · rw [steady.nextRound unforced, clock.current]
    exact awaits.nextRound
  · rw [clock.first, clock.number, timePoint]
    exact awaits.snapped

/-- A length ends the round at the next block if and only if the length of the round does. -/
def OnSchedule (length : Nat) (state : State AccountId Native) : Action AccountId Native → Prop
  | .nextBlock _ =>
      state.rounds.round.length ≤ state.blockNumber + 1 - state.rounds.round.first ↔
        length ≤ state.blockNumber + 1 - state.rounds.round.first
  | _ => True

/-- In the round of an announcement the announced block is the first of the next round if and
only if every block of the round is on schedule. -/
theorem Awaits.onSchedule_iff {length start : Nat} {actions : List (Action AccountId Native)}
    {last : State AccountId Native} (awaits : Awaits start before)
    (reachable : Reachable config spec before) (unforced : ∀ action ∈ actions, Unforced action)
    (isStart : start = before.rounds.round.first + length) (early : before.blockNumber < start)
    (taken : run (step config) before actions = some state)
    (inRound : state.rounds.round.current = before.rounds.round.current)
    (switches : step config state (.nextBlock parentHash) = some last)
    (isNext : last.rounds.round.current = state.rounds.round.current + 1) :
    Admitted (step config) (OnSchedule length) before (actions ++ [.nextBlock parentHash]) ↔
      last.blockNumber = start := by
  induction actions generalizing before with
  | nil =>
      cases taken
      have clock := reachable.nextBlock switches
      have due : state.rounds.round.shouldUpdate (state.blockNumber + 1) = true := by
        rw [clock.isRound, state.openedRound_current] at isNext
        by_contra waits
        rw [if_neg waits] at isNext
        omega
      simp only [RoundInfo.shouldUpdate, decide_eq_true_eq] at due
      have begun := reachable.onTime_any.begun
      rw [clock.number]
      simp only [List.nil_append, Admitted, OnSchedule, implies_true, and_true]
      omega
  | cons action rest ih =>
      obtain ⟨middle, first, others⟩ := Option.bind_eq_some_iff.mp taken
      have reachableMiddle : Reachable config spec middle := reachable.next trivial first
      have continued : Reaches (step config) (fun _ _ => True) middle state :=
        Reaches.start.append (admitted_of_forall (fun _ _ _ => trivial) middle) others
      have oneStep : Reaches (step config) (fun _ _ => True) before middle :=
        .next action .start trivial first
      have grows := (reachable.ahead oneStep).1
      obtain ⟨laterRound, laterBlock⟩ := reachableMiddle.ahead continued
      have inMiddle : middle.rounds.round.current = before.rounds.round.current := by omega
      have restUnforced : ∀ action ∈ rest, Unforced action :=
        fun action member => unforced action (List.mem_cons_of_mem _ member)
      have split : Admitted (step config) (OnSchedule length) before
          ((action :: rest) ++ [.nextBlock parentHash]) ↔
          OnSchedule length before action ∧
            Admitted (step config) (OnSchedule length) middle
              (rest ++ [.nextBlock parentHash]) := by
        simp [Admitted, first]
      rw [split]
      by_cases isBlock : ∃ parentHash, action = .nextBlock parentHash
      · obtain ⟨parentHash, rfl⟩ := isBlock
        obtain ⟨waits, sameRound, awaitsMiddle⟩ := awaits.block reachable first inMiddle
        have clock := reachable.nextBlock first
        have number := ((reachableMiddle.later continued).nextBlock switches).number
        have begun := reachable.onTime_any.begun
        simp only [RoundInfo.shouldUpdate, decide_eq_false_iff_not] at waits
        by_cases isEarly : middle.blockNumber < start
        · rw [ih awaitsMiddle reachableMiddle restUnforced (by rw [sameRound]; exact isStart)
            isEarly others (by omega)]
          have onSchedule : OnSchedule length before (.nextBlock parentHash) := by
            have isNumber := clock.number
            simp only [OnSchedule]
            omega
          exact and_iff_right onSchedule
        · refine iff_of_false ?_ (by omega)
          rintro ⟨onSchedule, _⟩
          have isNumber := clock.number
          simp only [OnSchedule] at onSchedule
          omega
      · have isBetween := not_exists.mp isBlock
        have clock := reachable.sameClock isBetween first
        have awaitsMiddle := awaits.between reachable (unforced action (by simp)) isBetween first
        have onSchedule : OnSchedule length before action := by
          cases action with
          | nextBlock parentHash => exact absurd rfl (isBetween parentHash)
          | extrinsic | awardPoints | moveBtc | changeNative => trivial
        rw [ih awaitsMiddle reachableMiddle restUnforced (by rw [clock.first]; exact isStart)
          (by rw [clock.number]; exact early) others (by omega)]
        exact and_iff_right onSchedule

/-- The next round stays announced for as long as the round lasts. -/
theorem Awaits.along {start : Nat} {later : State AccountId Native} (awaits : Awaits start state)
    (reachable : Reachable config spec state)
    (reaches : Reaches (step config) (fun _ => Unforced) state later)
    (inRound : later.rounds.round.current = state.rounds.round.current) : Awaits start later := by
  have kept : ∀ before action after, Reachable config spec before →
      (state.rounds.round.current ≤ before.rounds.round.current ∧
        (before.rounds.round.current = state.rounds.round.current → Awaits start before)) →
      Unforced action → step config before action = some after →
      state.rounds.round.current ≤ after.rounds.round.current ∧
        (after.rounds.round.current = state.rounds.round.current → Awaits start after) := by
    rintro before action after reached ⟨ahead, awaitsBefore⟩ unforced taken
    have oneStep : Reaches (step config) (fun _ _ => True) before after :=
      .next action .start trivial taken
    have grows := (reached.ahead oneStep).1
    refine ⟨ahead.trans grows, fun same => ?_⟩
    have awaitsNow := awaitsBefore (by omega)
    by_cases isBlock : ∃ parentHash, action = .nextBlock parentHash
    · obtain ⟨parentHash, rfl⟩ := isBlock
      exact (awaitsNow.block reached taken (by omega)).2.2
    · exact awaitsNow.between reached unforced (not_exists.mp isBlock) taken
  exact (reachable.along reaches kept ⟨le_refl _, fun _ => awaits⟩).2.2 inRound

omit [LinearOrder AccountId] in
/-- A call of `trigger_group` that fails leaves the announcement alone. -/
theorem triggered_nextRound (failed : (triggered config before parentHash after).1 ≠ .ok ()) :
    (triggered config before parentHash after).2.nextRound = before.groups.nextRound := by
  have ends : (triggerGroup config parentHash after.rounds.selectedCandidates
      (before.openedRound.first + before.openedRound.length)
      (before.openedRound.current + 1)).Ends before.groups _ _ := ends_triggerGroup _ _ _ _
  cases result : (triggered config before parentHash after).1 with
  | ok => exact absurd result failed
  | error fault =>
      obtain ⟨_, groupMembers, isAfter⟩ := ends.of_error (Prod.ext result rfl)
      have isLeft : (triggered config before parentHash after).2 =
          { before.groups with groupMembers } := isAfter
      rw [isLeft]

/-- A block without a successful grouping leaves the announcement alone. -/
theorem Reached.nextRound_of_quiet (reachable : Reachable config spec before)
    (taken : step config before (.nextBlock parentHash) = some after)
    (quiet : ¬Regroups config before parentHash after) :
    after.groups.nextRound = before.groups.nextRound := by
  have isOk := step_nextBlock_iff.mp taken
  rw [(reachable.block isOk).groups]
  split
  next isDue => exact triggered_nextRound fun isFormed => quiet ⟨isOk, isDue, isFormed⟩
  next => rfl

end Run

/-! ## The announced block and the real one -/

/-- Nothing is announced anew. -/
def Silent (config : Config AccountId Native) (state : State AccountId Native) :
    Action AccountId Native → Prop
  | .nextBlock parentHash => ∀ after, ¬Regroups config state parentHash after
  | action => Unforced action

/-- Until something is announced anew, the last announcement stays. -/
theorem Reached.nextRound_of_silent {later : State AccountId Native}
    (reachable : Reachable config spec state)
    (reaches : Reaches (step config) (Silent config) state later) :
    later.groups.nextRound = state.groups.nextRound := by
  have kept : ∀ before action after, Reachable config spec before →
      before.groups.nextRound = state.groups.nextRound → Silent config before action →
      step config before action = some after →
      after.groups.nextRound = state.groups.nextRound := by
    intro before action after reached same silent taken
    cases action with
    | nextBlock parentHash => exact (reached.nextRound_of_quiet taken (silent after)).trans same
    | extrinsic | awardPoints | moveBtc | changeNative =>
        have steady := Steady.of_step (fun _ isBlock => by cases isBlock) taken
        exact (steady.nextRound silent).trans same
  exact (reachable.along reaches kept rfl).2

/-- When the next round starts, it is the announced one that starts at the announced block,
and until something is announced anew, applications are to run at that block only. -/
def StartsAsAnnounced (config : Config AccountId Native) (announced last : State AccountId Native) :
    Prop :=
  last.groups.nextRound = (last.blockNumber, last.rounds.round.current) ∧
    ∀ later, Reaches (step config) (Silent config) announced later →
      (shouldRun later = true ↔ later.blockNumber = last.blockNumber)

/-- After a successful grouping the next round starts as announced if and only if each block
until then ends the round exactly if the length at the grouping does, and the block that
starts it does not group anew. -/
theorem starts_as_announced_iff {parentHash lastHash : Nat}
    {announced last : State AccountId Native} {actions : List (Action AccountId Native)}
    (reachable : Reachable config spec before)
    (regroups : Regroups config before parentHash announced)
    (unforced : ∀ action ∈ actions, Unforced action)
    (taken : run (step config) announced actions = some state)
    (inRound : state.rounds.round.current = announced.rounds.round.current)
    (switches : step config state (.nextBlock lastHash) = some last)
    (isNext : last.rounds.round.current = announced.rounds.round.current + 1) :
    StartsAsAnnounced config announced last ↔
      Admitted (step config) (OnSchedule announced.rounds.round.length) announced
        (actions ++ [.nextBlock lastHash]) ∧ ¬Regroups config state lastHash last := by
  obtain ⟨awaits, early⟩ := regroups.awaits reachable
  have isAnnounced : Reachable config spec announced :=
    reachable.next trivial (step_nextBlock_iff.mpr regroups.1)
  have continued : Reaches (step config) (fun _ => Unforced) announced state :=
    Reaches.start.append (admitted_of_forall (fun _ => unforced) announced) taken
  have isReached := isAnnounced.later continued
  have awaitsLast := awaits.along isAnnounced continued inRound
  rw [awaits.onSchedule_iff isAnnounced unforced rfl early taken inRound switches (by omega)]
  constructor
  · rintro ⟨isStart, _⟩
    have quiet : ¬Regroups config state lastHash last := by
      intro again
      have announcesNext := (again.awaits isReached).1.nextRound
      rw [isStart, Prod.mk.injEq] at announcesNext
      omega
    rw [isReached.nextRound_of_quiet switches quiet, awaitsLast.nextRound, Prod.mk.injEq] at isStart
    exact ⟨isStart.1.symm, quiet⟩
  · rintro ⟨isNumber, quiet⟩
    refine ⟨?_, fun later silent => ?_⟩
    · rw [isReached.nextRound_of_quiet switches quiet, awaitsLast.nextRound, isNumber, isNext,
        inRound]
    · rw [shouldRun, isAnnounced.nextRound_of_silent silent, awaits.nextRound, isNumber,
        decide_eq_true_eq]
      exact eq_comm

/-- While the length of the round is not changed, every block is on schedule. -/
theorem admitted_onSchedule {length : Nat} {actions : List (Action AccountId Native)}
    (reachable : Reachable config spec state) (isLength : state.rounds.round.length = length)
    (blocks : ∀ action ∈ actions, ∃ parentHash, action = .nextBlock parentHash) :
    Admitted (step config) (OnSchedule length) state actions := by
  induction actions generalizing state with
  | nil => trivial
  | cons action rest ih =>
      obtain ⟨parentHash, rfl⟩ := blocks action (by simp)
      refine ⟨?_, fun after taken => ?_⟩
      · rw [OnSchedule, isLength]
      · refine ih (reachable.next trivial taken) ?_ fun other member =>
          blocks other (by simp [member])
        rw [(reachable.nextBlock taken).isRound, state.openedRound_length, isLength]

/-- A run from a block that announces the next round to the block before it starts: what the
first block announces, and what the last one finds. -/
def announcedRun (actions : List (Action Nat (Nat → Nat))) :
    Option (List Nat × Bool × List Nat × Bool × Bool) :=
  (played mockRuntime (mockGenesis [1, 2, 3, 4, 5] []) groupedRun).bind fun before =>
    (step mockRuntime before (.nextBlock 9)).bind fun announced =>
      (run (step mockRuntime) announced actions).bind fun state =>
        (step mockRuntime state (.nextBlock 0)).map fun last =>
          ([announced.rounds.round.current, state.rounds.round.current, last.rounds.round.current],
            before.openedRound.shouldSnapshot (before.blockNumber + 1) &&
              (triggered mockRuntime before 9 announced).1.isOk,
            [last.groups.nextRound.1, last.groups.nextRound.2, last.blockNumber],
            state.openedRound.shouldSnapshot (state.blockNumber + 1), shouldRun last)

theorem regroups_of_shown {before after : State Nat (Nat → Nat)} {config : Config Nat (Nat → Nat)}
    {parentHash : Nat} (taken : step config before (.nextBlock parentHash) = some after)
    (shown : (before.openedRound.shouldSnapshot (before.blockNumber + 1) &&
      (triggered config before parentHash after).1.isOk) = true) :
    Regroups config before parentHash after := by
  obtain ⟨isDue, isOk⟩ := Bool.and_eq_true_iff.mp shown
  refine ⟨step_nextBlock_iff.mp taken, isDue, ?_⟩
  cases result : (triggered config before parentHash after).1 with
  | ok => rfl
  | error =>
      rw [result] at isOk
      cases isOk

theorem starts_as_announced_iff_five :
    ∃ before announced last, Reachable mockRuntime (mockGenesis [1, 2, 3, 4, 5] []) before ∧
      Regroups mockRuntime before 9 announced ∧ StartsAsAnnounced mockRuntime announced last := by
  obtain ⟨before, isPlayed, shown⟩ := Option.bind_eq_some_iff.mp
    (show announcedRun [.nextBlock 0] = some ([1, 1, 2], true, [5, 2, 5], false, true)
      by decide +kernel)
  obtain ⟨announced, announces, shown⟩ := Option.bind_eq_some_iff.mp shown
  obtain ⟨state, taken, shown⟩ := Option.bind_eq_some_iff.mp shown
  obtain ⟨last, switches, shown⟩ := Option.map_eq_some_iff.mp shown
  simp only [Prod.mk.injEq, List.cons.injEq, and_true] at shown
  obtain ⟨⟨isCurrent, inRound, isNext⟩, isGrouped, _, noSnapshot, _⟩ := shown
  have reachable := Reached.of_played_any isPlayed
  have regroups := regroups_of_shown announces isGrouped
  have quiet : ¬Regroups mockRuntime state 0 last := by
    rintro ⟨_, isDue, _⟩
    rw [noSnapshot] at isDue
    cases isDue
  have onSchedule : Admitted (step mockRuntime) (OnSchedule announced.rounds.round.length) announced
      ([.nextBlock 0] ++ [.nextBlock 0]) :=
    admitted_onSchedule (reachable.next trivial announces) rfl (by simp)
  refine ⟨before, announced, last, reachable, regroups, ?_⟩
  exact (starts_as_announced_iff reachable regroups (by simp [Unforced]) taken
    (inRound.trans isCurrent.symm) switches (by rw [isNext, isCurrent])).mpr ⟨onSchedule, quiet⟩

/-- The length of the round is changed after the next one has been announced. -/
def lengthenedRun : List (Action Nat (Nat → Nat)) :=
  [.extrinsic .root (.setBlocksPerRound 6), .nextBlock 0, .nextBlock 0]

/-- The next round need not start at the announced block. -/
theorem starts_not_as_announced :
    ∃ before announced state last,
      Reachable mockRuntime (mockGenesis [1, 2, 3, 4, 5] []) before ∧
      Regroups mockRuntime before 9 announced ∧
      run (step mockRuntime) announced lengthenedRun = some state ∧
      step mockRuntime state (.nextBlock 0) = some last ∧
      last.rounds.round.current = announced.rounds.round.current + 1 ∧
      shouldRun last = false ∧ ¬StartsAsAnnounced mockRuntime announced last := by
  obtain ⟨before, isPlayed, shown⟩ := Option.bind_eq_some_iff.mp
    (show announcedRun lengthenedRun = some ([1, 1, 2], true, [5, 2, 6], false, false)
      by decide +kernel)
  obtain ⟨announced, announces, shown⟩ := Option.bind_eq_some_iff.mp shown
  obtain ⟨state, taken, shown⟩ := Option.bind_eq_some_iff.mp shown
  obtain ⟨last, switches, shown⟩ := Option.map_eq_some_iff.mp shown
  simp only [Prod.mk.injEq, List.cons.injEq, and_true] at shown
  obtain ⟨⟨isCurrent, _, isNext⟩, isGrouped, ⟨isStart, _, isNumber⟩, _, waits⟩ := shown
  refine ⟨before, announced, state, last, Reached.of_played_any isPlayed,
    regroups_of_shown announces isGrouped, taken, switches, by rw [isNext, isCurrent], waits, ?_⟩
  rintro ⟨isReal, _⟩
  rw [isReal] at isStart
  omega

end Popsicle
