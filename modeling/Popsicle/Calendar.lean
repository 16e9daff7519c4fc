import Popsicle.Withdrawals

/-!
# The log of rounds

The log records when each round begins and when the snapshot for the next one is
taken.  The snapshot is taken at a fixed distance from the beginning of a round, so
it is missed if the round is over by then.
-/

namespace Popsicle

open Foundation Exec Keyed

/-! ## Logs -/

/-- The snapshot for the next round, if it has been taken. -/
def selections (current : Nat) (taken : Bool) : List RoundEvent :=
  if taken then [.candidatesSelected (current + 1)] else []

/-- The snapshot of a round that begins at `first` is taken before block `n`: its block is
not the genesis block, which is never initialized. -/
def passed (point first n : Nat) : Bool :=
  decide (0 < first + point ∧ first + point < n)

theorem passed_iff {point first n : Nat} :
    passed point first n = true ↔ 0 < first + point ∧ first + point < n :=
  decide_eq_true_iff

/-- The log of a run whose snapshots are taken `point` blocks after the beginning of a
round, with the current round, its first block, and whether the snapshot for the next
round has been taken.  A round that began at `first` may end at `next` if
`ends first next`. -/
inductive Logged (point : Nat) (ends : Nat → Nat → Prop) :
    List RoundEvent → Nat → Nat → Bool → Prop where
  | genesis : Logged point ends [.newRound 0 1] 1 0 false
  | selected {events : List RoundEvent} {current first : Nat}
      (logged : Logged point ends events current first false) :
      Logged point ends (events ++ [.candidatesSelected (current + 1)]) current first true
  | switched {events : List RoundEvent} {current first : Nat} {taken : Bool} (next : Nat)
      (logged : Logged point ends events current first taken)
      (timely : taken = passed point first next)
      (allowed : ends first next) :
      Logged point ends (events ++ [.newRound next (current + 1)]) (current + 1) next false

namespace Logged

variable {point current first : Nat} {ends : Nat → Nat → Prop} {events : List RoundEvent}
  {taken : Bool}

theorem newRound_notMem_selections (block round : Nat) :
    RoundEvent.newRound block round ∉ selections current taken := by
  cases taken <;> simp [selections]

theorem last (logged : Logged point ends events current first taken) :
    ∃ earlier, events = earlier ++ .newRound first current :: selections current taken ∧
      ∀ block round, RoundEvent.newRound block round ∈ earlier → round < current := by
  induction logged with
  | genesis => exact ⟨[], rfl, by simp⟩
  | selected logged ih =>
      obtain ⟨earlier, rfl, bound⟩ := ih
      exact ⟨earlier, by simp [selections], bound⟩
  | @switched events current first taken next logged timely allowed ih =>
      obtain ⟨earlier, rfl, bound⟩ := ih
      refine ⟨_, rfl, fun block round member => ?_⟩
      rw [List.mem_append, List.mem_cons] at member
      rcases member with inEarlier | isLast | inSelections
      · exact (bound block round inEarlier).trans (Nat.lt_succ_self _)
      · cases isLast
        exact Nat.lt_succ_self _
      · exact absurd inSelections (newRound_notMem_selections block round)

/-- The log has no snapshot for a round after the next one, and one for the next
round exactly if it has been taken. -/
theorem mem_candidatesSelected (logged : Logged point ends events current first taken) :
    (RoundEvent.candidatesSelected (current + 1) ∈ events ↔ taken = true) ∧
      ∀ round, RoundEvent.candidatesSelected round ∈ events → round ≤ current + 1 := by
  induction logged with
  | genesis => simp
  | selected logged ih =>
      refine ⟨by simp, fun round member => ?_⟩
      rw [List.mem_append, List.mem_singleton] at member
      rcases member with earlier | isLast
      · exact ih.2 round earlier
      · cases isLast
        exact le_refl _
  | switched next logged timely allowed ih =>
      refine ⟨?_, fun round member => ?_⟩
      · simp only [List.mem_append, List.mem_singleton, reduceCtorEq, or_false, Bool.false_eq_true,
          iff_false]
        exact fun member => absurd (ih.2 _ member) (by omega)
      · simp only [List.mem_append, List.mem_singleton, reduceCtorEq, or_false] at member
        exact (ih.2 round member).trans (Nat.le_succ _)

theorem positive (logged : Logged point ends events current first taken) : 1 ≤ current := by
  induction logged with
  | genesis => exact le_refl _
  | selected _ ih => exact ih
  | switched _ _ _ _ ih => exact ih.trans (Nat.le_succ _)

theorem newRound_unique (logged : Logged point ends events current first taken) (round : Nat) :
    (∀ block, RoundEvent.newRound block round ∈ events → round ≤ current) ∧
      ∀ block other, .newRound block round ∈ events → .newRound other round ∈ events →
        block = other := by
  induction logged with
  | genesis =>
      have isFirst : ∀ block, RoundEvent.newRound block round ∈ [RoundEvent.newRound 0 1] →
          block = 0 ∧ round = 1 := by
        intro block member
        rwa [List.mem_singleton, RoundEvent.newRound.injEq] at member
      exact ⟨fun block member => (isFirst block member).2.le, fun block other member otherMember =>
        (isFirst block member).1.trans (isFirst other otherMember).1.symm⟩
  | selected _ ih => simpa using ih
  | @switched events current first taken next _ _ _ ih =>
      have isLast : ∀ block, RoundEvent.newRound block round ∈
          events ++ [.newRound next (current + 1)] →
          (RoundEvent.newRound block round ∈ events ∧ round ≤ current) ∨
            (block = next ∧ round = current + 1) := by
        intro block member
        rw [List.mem_append, List.mem_singleton, RoundEvent.newRound.injEq] at member
        exact member.imp_left fun earlier => ⟨earlier, ih.1 block earlier⟩
      constructor
      · intro block member
        rcases isLast block member with ⟨_, isEarly⟩ | ⟨_, isNow⟩
        · exact isEarly.trans (Nat.le_succ _)
        · exact isNow.le
      · intro block other member otherMember
        rcases isLast block member with ⟨earlier, isEarly⟩ | ⟨isBlock, isNow⟩
        · rcases isLast other otherMember with ⟨otherEarlier, _⟩ | ⟨_, isNow⟩
          · exact ih.2 block other earlier otherEarlier
          · omega
        · rcases isLast other otherMember with ⟨_, isEarly⟩ | ⟨isOther, _⟩
          · omega
          · exact isBlock.trans isOther.symm

/-- If every round is long enough for its snapshot, the current one has been
selected. -/
theorem current_selected (logged : Logged point ends events current first taken)
    (enough : ∀ block next, ends block next → passed point block next = true) :
    current = 1 ∨ RoundEvent.candidatesSelected current ∈ events := by
  induction logged with
  | genesis => exact .inl rfl
  | selected _ ih => exact ih.imp_right (List.mem_append_left _)
  | switched next logged timely allowed _ =>
      have isTaken := timely.trans (enough _ _ allowed)
      exact .inr (List.mem_append_left _ (logged.mem_candidatesSelected.1.mpr isTaken))

theorem append_singleton_eq {α : Type} {before left right : List α} {last middle : α}
    (equal : before ++ [last] = left ++ middle :: right) :
    (right = [] ∧ before = left ∧ last = middle) ∨
      ∃ rest, right = rest ++ [last] ∧ before = left ++ middle :: rest := by
  rcases List.eq_nil_or_concat right with rfl | ⟨rest, final, rfl⟩
  · obtain ⟨same, isLast⟩ := List.append_inj' equal rfl
    exact .inl ⟨rfl, same, List.singleton_inj.mp isLast⟩
  · rw [List.concat_eq_append, ← List.cons_append, ← List.append_assoc] at equal
    obtain ⟨same, isLast⟩ := List.append_inj' equal rfl
    rw [List.concat_eq_append, List.singleton_inj.mp isLast]
    exact .inr ⟨rest, rfl, same⟩

/-- Between the beginnings of two rounds one snapshot is taken, if the first round is
long enough, and none otherwise. -/
theorem between (logged : Logged point ends events current first taken)
    {earlier middle later : List RoundEvent} {block next round : Nat}
    (isLog : events = (earlier ++ .newRound block round :: middle) ++
      .newRound next (round + 1) :: later) :
    middle = selections round (passed point block next) ∧
      ends block next := by
  induction logged generalizing later with
  | genesis =>
      have length := congrArg List.length isLog
      simp at length
      omega
  | selected logged ih =>
      rcases append_singleton_eq isLog with ⟨_, _, isLast⟩ | ⟨rest, _, before⟩
      · cases isLast
      · exact ih before
  | @switched events current first taken last logged timely allowed ih =>
      rcases append_singleton_eq isLog with ⟨_, before, isLast⟩ | ⟨rest, _, before⟩
      · cases isLast
        obtain ⟨others, isEnd, bound⟩ := logged.last
        have same : middle = selections round taken ∧ block = first := by
          rw [isEnd] at before
          rcases List.append_eq_append_iff.mp before with
            ⟨skipped, rfl, rest⟩ | ⟨skipped, rfl, rest⟩
          · cases skipped with
            | nil =>
                simp only [List.nil_append, List.cons.injEq, RoundEvent.newRound.injEq,
                  and_true] at rest
                exact ⟨rest.2.symm, rest.1.symm⟩
            | cons head tail =>
                rw [List.cons_append, List.cons.injEq] at rest
                have member : RoundEvent.newRound block round ∈ selections round taken := by
                  rw [rest.2]
                  simp
                exact absurd member (newRound_notMem_selections _ _)
          · cases skipped with
            | nil =>
                simp only [List.nil_append, List.cons.injEq, RoundEvent.newRound.injEq,
                  and_true] at rest
                exact ⟨rest.2, rest.1⟩
            | cons head tail =>
                rw [List.cons_append, List.cons.injEq] at rest
                have member : RoundEvent.newRound block round ∈
                    earlier ++ head :: tail := by
                  rw [← rest.1]
                  simp
                exact absurd (bound block round member) (lt_irrefl _)
        obtain ⟨rfl, rfl⟩ := same
        exact ⟨by rw [timely], allowed⟩
      · exact ih before

end Logged

/-! ## Blocks and the log -/

section Chain

variable {AccountId Native : Type} [LinearOrder AccountId] {config : Config AccountId Native}
  {spec : ChainSpec AccountId Native} {point : Nat} {ends : Nat → Nat → Prop}
  {before after state : State AccountId Native}

theorem Payout.sameLog (payout : Payout config before after) :
    after.rounds.round = before.rounds.round ∧ after.rounds.events = before.rounds.events ∧
      after.rounds.selectedCandidates = before.rounds.selectedCandidates := by
  cases payout <;> exact ⟨rfl, rfl, rfl⟩

omit [LinearOrder AccountId] in
theorem prepareStakingPayouts_frame (config : Config AccountId Native) (round : RoundInfo)
    (rounds : Rounds AccountId) :
    ∃ delayedPayouts,
      prepareStakingPayouts config round rounds = { rounds with delayedPayouts } := by
  unfold prepareStakingPayouts
  dsimp only
  split
  next => exact ⟨rounds.delayedPayouts, rfl⟩
  next => exact ⟨_, rfl⟩

omit [LinearOrder AccountId] in
theorem Rounds.switched_frame (config : Config AccountId Native) (n : Nat)
    (rounds : Rounds AccountId) :
    ∃ delayedPayouts, rounds.switched config n = { rounds with
      delayedPayouts
      round := rounds.round.update n
      events := rounds.events ++ [.newRound n (rounds.round.current + 1)] } := by
  obtain ⟨delayedPayouts, prepared⟩ :=
    prepareStakingPayouts_frame config (rounds.round.update n) rounds
  refine ⟨delayedPayouts, ?_⟩
  rw [Rounds.switched, prepared]
  rfl

/-- A selection only stores snapshots and the selected sequencers. -/
theorem Selection.frame {next : Nat} {rounds : Rounds AccountId}
    (selection : Selection config next before rounds) :
    ∃ snapshots selectedCandidates, rounds = { before.rounds with
      atStake := Function.update before.rounds.atStake next snapshots
      selectedCandidates } := by
  cases selection with
  | repeats => exact ⟨_, before.rounds.selectedCandidates, rfl⟩
  | selects sequencers snapshots => exact ⟨snapshots, sequencers, rfl⟩

/-- The log of a state is that of its round, up to its block. -/
structure OnTime (point : Nat) (ends : Nat → Nat → Prop) (state : State AccountId Native) :
    Prop where
  logged : Logged point ends state.rounds.events state.rounds.round.current
    state.rounds.round.first (passed point state.rounds.round.first (state.blockNumber + 1))
  timePoint : state.rounds.round.snapshotTimePoint = point
  begun : state.rounds.round.first ≤ state.blockNumber

/-- The log of a state is that of its round, before the snapshot of block `n`. -/
structure Opened (point : Nat) (ends : Nat → Nat → Prop) (n : Nat)
    (state : State AccountId Native) : Prop where
  logged : Logged point ends state.rounds.events state.rounds.round.current
    state.rounds.round.first (passed point state.rounds.round.first n)
  timePoint : state.rounds.round.snapshotTimePoint = point
  begun : state.rounds.round.first ≤ n

/-- Opening the next block, if a round that ends may end there. -/
theorem OnTime.opens (onTime : OnTime point ends before) {parentHash : Nat}
    (opens : Opens config (before.blockNumber + 1) (enterBlock before parentHash) after)
    (allowed : before.rounds.round.shouldUpdate (before.blockNumber + 1) = true →
      ends before.rounds.round.first (before.blockNumber + 1)) :
    Opened point ends (before.blockNumber + 1) after := by
  cases opens with
  | switches due =>
      obtain ⟨_, frame⟩ := Rounds.switched_frame config (before.blockNumber + 1)
        (enterBlock before parentHash).rounds
      rw [frame]
      have notYet : passed point (before.blockNumber + 1) (before.blockNumber + 1) = false := by
        simp only [passed, decide_eq_false_iff_not]
        omega
      refine ⟨?_, onTime.timePoint, le_refl _⟩
      dsimp only [RoundInfo.update]
      rw [notYet]
      exact .switched _ onTime.logged rfl (allowed due)
  | pays waits payout =>
      obtain ⟨isRound, isLog, _⟩ := payout.sameLog
      have begun := onTime.begun
      refine ⟨?_, ?_, ?_⟩
      · rw [isRound, isLog]
        exact onTime.logged
      · rw [isRound]
        exact onTime.timePoint
      · rw [isRound]
        exact begun.trans (Nat.le_succ _)

theorem OnTime.block (onTime : OnTime point ends before) {parentHash : Nat}
    (block : Block config (before.blockNumber + 1) (enterBlock before parentHash) after)
    (allowed : before.rounds.round.shouldUpdate (before.blockNumber + 1) = true →
      ends before.rounds.round.first (before.blockNumber + 1)) : OnTime point ends after := by
  have sameNumber : after.blockNumber = before.blockNumber + 1 := block.frame.2
  cases block with
  | plain opens noSnapshot =>
      have opened := onTime.opens opens allowed
      have begun := opened.begun
      refine ⟨?_, opened.timePoint, ?_⟩
      · have logged := opened.logged
        have notNow : after.rounds.round.first + point ≠ before.blockNumber + 1 := by
          simp only [RoundInfo.shouldSnapshot, decide_eq_false_iff_not, opened.timePoint]
            at noSnapshot
          omega
        have samePassed : passed point after.rounds.round.first (after.blockNumber + 1) =
            passed point after.rounds.round.first (before.blockNumber + 1) := by
          rw [sameNumber, Bool.eq_iff_iff, passed_iff, passed_iff]
          omega
        rw [samePassed]
        exact logged
      · rw [sameNumber]
        exact begun
  | @snapshots middle rounds opens snapshot selection =>
      have opened := onTime.opens opens allowed
      have begun := opened.begun
      have now : middle.rounds.round.first + point = before.blockNumber + 1 := by
        simp only [RoundInfo.shouldSnapshot, decide_eq_true_eq, opened.timePoint] at snapshot
        omega
      obtain ⟨_, _, rfl⟩ := selection.frame
      refine ⟨?_, opened.timePoint, begun.trans sameNumber.ge⟩
      have logged := opened.logged
      have notYet : passed point middle.rounds.round.first (before.blockNumber + 1) = false := by
        simp [passed, now]
      have taken : passed point middle.rounds.round.first (middle.blockNumber + 1) = true := by
        have number : middle.blockNumber = before.blockNumber + 1 := sameNumber
        rw [passed_iff]
        omega
      rw [notYet] at logged
      dsimp only
      rw [taken]
      exact .selected logged

/-- A round may end where an action of a run would end it. -/
def EndsRound (ends : Nat → Nat → Prop) (state : State AccountId Native) :
    Action AccountId Native → Prop
  | .nextBlock _ => state.rounds.round.shouldUpdate (state.blockNumber + 1) = true →
      ends state.rounds.round.first (state.blockNumber + 1)
  | _ => True

/-- The log is that of the rounds in every state a run reaches. -/
theorem Reached.onTime {admits : State AccountId Native → Action AccountId Native → Prop}
    (reached : Reached config spec admits state)
    (allows : ∀ state action, Reached config spec admits state → admits state action →
      EndsRound ends state action) :
    OnTime spec.snapshotTimePoint ends state := by
  refine reached.chain (fun state action _ => allows_any state action) ?_ ?_
  · rintro stakes start ⟨rounds, selection, rfl⟩
    obtain ⟨_, _, rfl⟩ := selection.frame
    have notYet : passed spec.snapshotTimePoint 0 (0 + 1) = false := by
      rw [Bool.eq_false_iff, ne_eq, passed_iff]
      omega
    refine ⟨?_, rfl, le_refl _⟩
    dsimp only [ChainSpec.initial]
    rw [notYet]
    exact .genesis
  · intro before action after reachedBefore onTime admitted transition
    cases transition with
    | update update =>
        cases update <;> exact ⟨onTime.logged, onTime.timePoint, onTime.begun⟩
    | awards => exact ⟨onTime.logged, onTime.timePoint, onTime.begun⟩
    | block parentHash block => exact onTime.block block (allows before _ reachedBefore admitted)

omit [LinearOrder AccountId] in
theorem endsRound_any (state : State AccountId Native) (action : Action AccountId Native) :
    EndsRound (fun _ _ => True) state action := by
  cases action <;> simp [EndsRound]

theorem Reached.onTime_any {admits : State AccountId Native → Action AccountId Native → Prop}
    (reached : Reached config spec admits state) :
    OnTime spec.snapshotTimePoint (fun _ _ => True) state :=
  reached.onTime fun state action _ _ => endsRound_any state action

/-! ## One snapshot per round -/

/-- Between the beginning of a round at block `first` and that of the next one at block
`next`, the log has the given events. -/
def Completed (events : List RoundEvent) (round first next : Nat) (between : List RoundEvent) :
    Prop :=
  ∃ earlier later, events = (earlier ++ .newRound first round :: between) ++
    .newRound next (round + 1) :: later

theorem Completed.append {events more between : List RoundEvent} {round first next : Nat}
    (completed : Completed events round first next between) :
    Completed (events ++ more) round first next between := by
  obtain ⟨earlier, later, rfl⟩ := completed
  exact ⟨earlier, later ++ more, by simp⟩

theorem Logged.completed_unique {events between between' : List RoundEvent}
    {current first round begun begun' next next' : Nat} {taken : Bool}
    (logged : Logged point ends events current first taken)
    (completed : Completed events round begun next between)
    (completed' : Completed events round begun' next' between') :
    begun = begun' ∧ next = next' := by
  obtain ⟨_, _, isLog⟩ := completed
  obtain ⟨_, _, isLog'⟩ := completed'
  constructor
  · refine (logged.newRound_unique round).2 begun begun' ?_ ?_
    · simp [isLog]
    · simp [isLog']
  · refine (logged.newRound_unique (round + 1)).2 next next' ?_ ?_
    · simp [isLog]
    · simp [isLog']

/-- The snapshot of a round comes before its end. -/
def LongEnough (spec : ChainSpec AccountId Native) (first next : Nat) : Prop :=
  0 < first + spec.snapshotTimePoint ∧ first + spec.snapshotTimePoint < next

/-- A completed round has one snapshot for the next round exactly if it was long
enough; so if all rounds of a run are, each has one. -/
theorem one_snapshot_per_round (config : Config AccountId Native)
    (spec : ChainSpec AccountId Native) :
    (∀ state, Reachable config spec state → ∀ round first next between,
      Completed state.rounds.events round first next between →
        (between = [.candidatesSelected (round + 1)] ↔ LongEnough spec first next)) ∧
    ∀ state, Reached config spec (EndsRound (LongEnough spec)) state →
      ∀ round first next between, Completed state.rounds.events round first next between →
        between = [.candidatesSelected (round + 1)] := by
  constructor
  · rintro state reachable round first next between ⟨earlier, later, isLog⟩
    obtain ⟨isBetween, _⟩ := reachable.onTime_any.logged.between isLog
    rw [isBetween, LongEnough, ← passed_iff, selections]
    split <;> simp_all
  · rintro state reached round first next between ⟨earlier, later, isLog⟩
    obtain ⟨isBetween, enough⟩ := (reached.onTime fun _ _ _ => id).logged.between isLog
    rw [isBetween, selections, passed_iff.mpr enough]
    rfl

end Chain

/-- A genesis with two sequencers in one group. -/
def pairGenesis : ChainSpec Nat (Nat → Nat) :=
  { mockGenesis [1, 2] [] with groupSize := 2 }

/-- Two rounds of the length that genesis gives. -/
theorem one_snapshot_per_round_pair :
    ∃ state, Reachable mockRuntime pairGenesis state ∧
      state.rounds.events = [.newRound 0 1, .candidatesSelected 2, .newRound 5 2] ∧
      ([RoundEvent.candidatesSelected 2] = [.candidatesSelected (1 + 1)] ↔
        LongEnough pairGenesis 0 5) := by
  obtain ⟨state, reachable, events⟩ := Reached.exists_of_played
    (show (played mockRuntime pairGenesis (List.replicate 5 (.nextBlock 0))).map
      (fun state => state.rounds.events) =
      some [.newRound 0 1, .candidatesSelected 2, .newRound 5 2] by decide +kernel)
  refine ⟨state, reachable, events,
    (one_snapshot_per_round mockRuntime pairGenesis).1 state reachable 1 0 5 _ ⟨[], [], ?_⟩⟩
  rw [events]
  rfl

/-- Root shortens the first round. -/
def shortenedRound : List (Action Nat (Nat → Nat)) :=
  [.nextBlock 0, .extrinsic .root (.setBlocksPerRound 3), .nextBlock 0, .nextBlock 0]

/-- A round that is shortened ends without a snapshot for the next one. -/
theorem snapshot_missed :
    ∃ state, Reachable mockRuntime pairGenesis state ∧
      Completed state.rounds.events 1 0 3 [] ∧
      ([] : List RoundEvent) ≠ [.candidatesSelected (1 + 1)] := by
  obtain ⟨state, reachable, events⟩ := Reached.exists_of_played
    (show (played mockRuntime pairGenesis shortenedRound).map (fun state => state.rounds.events) =
      some [.newRound 0 1, .newRound 3 2] by decide +kernel)
  refine ⟨state, reachable, ⟨[], [], ?_⟩, by decide⟩
  rw [events]
  rfl

end Popsicle
