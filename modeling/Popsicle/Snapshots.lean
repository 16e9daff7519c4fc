import Popsicle.Calendar

/-!
# Snapshots of the selected sequencers

Every selected sequencer has a snapshot for the last round for which one was taken.
The selection of the next round falls back on the snapshots of the current one, and
panics if those were missed.
-/

namespace Popsicle

open Foundation Exec Keyed

variable {AccountId Native : Type} [LinearOrder AccountId] {config : Config AccountId Native}
  {spec : ChainSpec AccountId Native} {before after state : State AccountId Native}

/-- The snapshot for a round has been taken; that for the first round is taken at
genesis. -/
def Snapped (events : List RoundEvent) (round : Nat) : Prop :=
  round = 1 ∨ .candidatesSelected round ∈ events

/-- The selected sequencers all have a snapshot for a round. -/
def Covers (rounds : Rounds AccountId) (round : Nat) : Prop :=
  ∀ candidate ∈ rounds.selectedCandidates, ((rounds.atStake round).get candidate).isSome = true

/-- Payouts wait for earlier rounds only, rounds without a snapshot have nothing at
stake, and the selected sequencers are covered by the last snapshot. -/
structure Staged (rounds : Rounds AccountId) : Prop where
  payouts : ∀ round payoutInfo, rounds.delayedPayouts.get round = some payoutInfo →
    round < rounds.round.current
  absent : ∀ round, ¬Snapped rounds.events round →
    ∀ account, (rounds.atStake round).get account = none
  upcoming : Snapped rounds.events (rounds.round.current + 1) →
    Covers rounds (rounds.round.current + 1)
  present : ¬Snapped rounds.events (rounds.round.current + 1) →
    Snapped rounds.events rounds.round.current → Covers rounds rounds.round.current

/-! ## Opening a block -/

omit [LinearOrder AccountId] in
theorem prepareStakingPayouts_get {round : RoundInfo} {rounds : Rounds AccountId} {earlier : Nat}
    {payoutInfo : DelayedPayout}
    (stored : (prepareStakingPayouts config round rounds).delayedPayouts.get earlier =
      some payoutInfo) :
    earlier = round.current - 1 ∨ rounds.delayedPayouts.get earlier = some payoutInfo := by
  unfold prepareStakingPayouts at stored
  dsimp only at stored
  split at stored
  next => exact .inr stored
  next =>
    dsimp only at stored
    rw [StorageMap.get_insert] at stored
    split at stored
    next equal => exact .inl equal
    next => exact .inr stored

theorem Payout.atStake (payout : Payout config before after)
    (payouts : ∀ round payoutInfo, before.rounds.delayedPayouts.get round = some payoutInfo →
      round < before.rounds.round.current) :
    (∀ round, before.rounds.round.current ≤ round →
      after.rounds.atStake round = before.rounds.atStake round) ∧
    (∀ round account, (before.rounds.atStake round).get account = none →
      (after.rounds.atStake round).get account = none) ∧
    ∀ round payoutInfo, after.rounds.delayedPayouts.get round = some payoutInfo →
      before.rounds.delayedPayouts.get round = some payoutInfo := by
  cases payout with
  | nothing => exact ⟨fun _ _ => rfl, fun _ _ => id, fun _ _ => id⟩
  | finishes round payoutInfo due =>
      refine ⟨fun _ _ => rfl, fun _ _ => id, fun other info stored => ?_⟩
      dsimp only at stored
      rw [StorageMap.get_remove] at stored
      split at stored
      next => cases stored
      next => exact stored
  | takes round payoutInfo sequencer snapshot native due =>
      have early := payouts round payoutInfo due.2
      refine ⟨fun other late => ?_, fun other account isNone => ?_, fun _ _ => id⟩
      · exact Function.update_of_ne (by omega) _ _
      · dsimp only [Rounds.taken]
        rw [Function.update_apply]
        split
        next equal =>
          rw [StorageMap.get_remove]
          split
          next => rfl
          next => rw [← equal, isNone]
        next => exact isNone

/-- Opening a block keeps what is staged, and the snapshots of the round it is in are
those from before. -/
theorem Staged.opens (staged : Staged before.rounds) {n : Nat}
    (later : ∀ round, .candidatesSelected round ∈ before.rounds.events →
      round ≤ before.rounds.round.current + 1)
    (opens : Opens config n before after) : Staged after.rounds := by
  cases opens with
  | switches due =>
      obtain ⟨delayedPayouts, frame⟩ := Rounds.switched_frame config n before.rounds
      have stored : delayedPayouts = (before.rounds.switched config n).delayedPayouts := by
        rw [frame]
      have isSnapped : ∀ round, Snapped (before.rounds.events ++
          [.newRound n (before.rounds.round.current + 1)]) round ↔
          Snapped before.rounds.events round := by
        simp [Snapped]
      have notUpcoming : ¬Snapped before.rounds.events (before.rounds.round.current + 1 + 1) := by
        rintro (isFirst | isSelected)
        · omega
        · exact absurd (later _ isSelected) (by omega)
      rw [frame]
      refine ⟨fun round payoutInfo isStored => ?_, fun round missing => ?_, fun snapped => ?_,
        fun _ snapped => ?_⟩
      · dsimp only [RoundInfo.update] at isStored ⊢
        rw [stored] at isStored
        rcases prepareStakingPayouts_get isStored with rfl | old
        · exact Nat.lt_succ_self _
        · exact (staged.payouts round payoutInfo old).trans (Nat.lt_succ_self _)
      · exact staged.absent round (fun snapped => missing ((isSnapped round).mpr snapped))
      · exact absurd ((isSnapped _).mp snapped) notUpcoming
      · exact staged.upcoming ((isSnapped _).mp snapped)
  | pays waits payout =>
      obtain ⟨isRound, isLog, isSelected⟩ := payout.sameLog
      obtain ⟨same, shrinks, fewer⟩ := payout.atStake staged.payouts
      refine ⟨fun round payoutInfo stored => ?_, fun round missing account => ?_, fun snapped => ?_,
        fun missing snapped => ?_⟩
      · rw [isRound]
        exact staged.payouts round payoutInfo (fewer round payoutInfo stored)
      · rw [isLog] at missing
        exact shrinks round account (staged.absent round missing account)
      · rw [isRound, isLog] at snapped
        rw [isRound, Covers, isSelected, same _ (Nat.le_succ _)]
        exact staged.upcoming snapped
      · rw [isRound, isLog] at missing snapped
        rw [isRound, Covers, isSelected, same _ (le_refl _)]
        exact staged.present missing snapped

/-! ## Selecting the next sequencers -/

theorem Staged.selects (staged : Staged before.rounds) {rounds : Rounds AccountId}
    (selection : Selection config (before.rounds.round.current + 1) before rounds) :
    Staged { rounds with
      events := rounds.events ++ [.candidatesSelected (before.rounds.round.current + 1)] } := by
  have covers : Covers rounds (before.rounds.round.current + 1) := by
    intro candidate member
    cases selection with
    | repeats _ covered =>
        have isSome := covered candidate member
        rw [Nat.add_sub_cancel] at isSome ⊢
        dsimp only
        rw [Function.update_self, StorageMap.get_overlay, Option.isSome_or, isSome]
        simp
    | selects sequencers snapshots _ _ _ _ taken =>
        obtain ⟨info, top, _, _, isSnapshot⟩ := taken.1 candidate member
        dsimp only
        rw [Function.update_self, isSnapshot]
        rfl
  obtain ⟨snapshots, selectedCandidates, rfl⟩ := selection.frame
  refine ⟨staged.payouts, fun round missing account => ?_, fun _ => covers, fun missing => ?_⟩
  · have different : round ≠ before.rounds.round.current + 1 := by
      rintro rfl
      exact missing (.inr (by simp))
    have old : ¬Snapped before.rounds.events round := by
      rintro (isFirst | isSelected)
      · exact missing (.inl isFirst)
      · exact missing (.inr (List.mem_append_left _ isSelected))
    dsimp only
    rw [Function.update_of_ne different]
    exact staged.absent round old account
  · exact absurd (.inr (by simp)) missing

omit [LinearOrder AccountId] in
theorem Staged.congr {rounds rounds' : Rounds AccountId} (staged : Staged rounds)
    (payouts : rounds'.delayedPayouts = rounds.delayedPayouts)
    (current : rounds'.round.current = rounds.round.current)
    (events : rounds'.events = rounds.events) (atStake : rounds'.atStake = rounds.atStake)
    (selected : rounds'.selectedCandidates = rounds.selectedCandidates) : Staged rounds' := by
  refine ⟨?_, ?_, ?_, ?_⟩
  · rw [payouts, current]
    exact staged.payouts
  · rw [events, atStake]
    exact staged.absent
  · rw [events, current, Covers, selected, atStake]
    exact staged.upcoming
  · rw [events, current, Covers, selected, atStake]
    exact staged.present

theorem Started.staged {stakes : Stakes AccountId Native} {start : State AccountId Native}
    (started : Started config spec stakes start) : Staged start.rounds := by
  obtain ⟨rounds, selection, rfl⟩ := started
  have covers : Covers rounds 1 := by
    intro candidate member
    cases selection with
    | repeats => cases member
    | selects sequencers snapshots _ _ _ _ taken =>
        obtain ⟨info, top, _, _, isSnapshot⟩ := taken.1 candidate member
        dsimp only
        rw [Function.update_self, isSnapshot]
        rfl
  obtain ⟨snapshots, selectedCandidates, rfl⟩ := selection.frame
  have notSnapped : ∀ round, Snapped (spec.initial.rounds.events ++ [.newRound 0 1]) round ↔
      round = 1 := by
    simp [Snapped, ChainSpec.initial]
  refine ⟨fun _ _ => by simp [ChainSpec.initial], fun round missing account => ?_,
    fun snapped => ?_, fun _ _ => covers⟩
  · have different : round ≠ 1 := fun isFirst => missing ((notSnapped round).mpr isFirst)
    dsimp only
    rw [Function.update_of_ne different]
    rfl
  · have isFirst : 1 + 1 = 1 := (notSnapped _).mp snapped
    cases isFirst

theorem Reached.staged {admits : State AccountId Native → Action AccountId Native → Prop}
    (reached : Reached config spec admits state) : Staged state.rounds := by
  refine reached.chain (fun state action _ => allows_any state action)
    (fun _ _ started => started.staged) ?_
  intro before action after reachedBefore staged _ transition
  have onTime := reachedBefore.onTime_any
  cases transition with
  | update update => cases update <;> exact staged.congr rfl rfl rfl rfl rfl
  | awards => exact staged.congr rfl rfl rfl rfl rfl
  | block parentHash block =>
      have later := onTime.logged.mem_candidatesSelected.2
      have entered : Staged (enterBlock before parentHash).rounds := staged
      cases block with
      | plain opens noSnapshot => exact entered.opens later opens
      | snapshots rounds opens snapshot selection =>
          exact (entered.opens later opens).selects selection

/-! ## When a selection panics -/

/-- The round that the next block is in. -/
def State.openedRound (state : State AccountId Native) : RoundInfo :=
  if state.rounds.round.shouldUpdate (state.blockNumber + 1) then
    state.rounds.round.update (state.blockNumber + 1)
  else state.rounds.round

/-- Opening a block leaves everything that the selection reads but snapshots alone. -/
theorem Opens.reads {parentHash : Nat}
    (opens : Opens config (before.blockNumber + 1) (enterBlock before parentHash) after) :
    after.rounds.round = before.openedRound ∧
      after.rounds.selectedCandidates = before.rounds.selectedCandidates ∧
      (∀ round, .candidatesSelected round ∈ after.rounds.events ↔
        .candidatesSelected round ∈ before.rounds.events) ∧
      after.stakes.candidatePool = before.stakes.candidatePool ∧ after.groups = before.groups := by
  unfold State.openedRound
  cases opens with
  | switches due =>
      have isDue : before.rounds.round.shouldUpdate (before.blockNumber + 1) = true := due
      obtain ⟨_, frame⟩ := Rounds.switched_frame config (before.blockNumber + 1)
        (enterBlock before parentHash).rounds
      rw [frame, if_pos isDue]
      exact ⟨rfl, rfl, fun round => by simp [enterBlock], rfl, rfl⟩
  | pays waits payout =>
      have isEarly : ¬before.rounds.round.shouldUpdate (before.blockNumber + 1) = true := by
        have isFalse : before.rounds.round.shouldUpdate (before.blockNumber + 1) = false := waits
        simp [isFalse]
      rw [if_neg isEarly]
      obtain ⟨isRound, isLog, isSelected⟩ := payout.sameLog
      obtain ⟨native, rounds, frame⟩ := payout.frame
      refine ⟨isRound, isSelected, fun round => ?_, ?_, ?_⟩
      · rw [isLog]
        rfl
      · rw [frame]
        rfl
      · rw [frame]
        rfl

/-- The snapshot for the current round was missed, and so there is nothing to fall back
on when there is no one to select for the next round. -/
def Stranded (config : Config AccountId Native) (state : State AccountId Native) : Prop :=
  state.openedRound.shouldSnapshot (state.blockNumber + 1) = true ∧
    NothingToSelect config state ∧ state.rounds.selectedCandidates ≠ [] ∧
    ¬Snapped state.rounds.events state.openedRound.current

/-- The next block panics in `select_top_candidates`. -/
def SelectionPanics (config : Config AccountId Native) (state : State AccountId Native)
    (parentHash : Nat) : Prop :=
  ∃ site ∈ [PanicSite.selectedCandidatesHaveSnapshots, .membersOfCandidateQ,
      .subsetOfMaxCandidates],
    (onInitialize config (state.blockNumber + 1) (enterBlock state parentHash)).1 =
      .error (.panic site)

omit [LinearOrder AccountId] in
/-- With the snapshot for the next round still to be taken, the selected sequencers are
uncovered if and only if that for the current round was missed. -/
theorem Staged.uncovered_iff (staged : Staged state.rounds)
    (notYet : ¬Snapped state.rounds.events (state.rounds.round.current + 1)) :
    Uncovered config (state.rounds.round.current + 1) state ↔
      NothingToSelect config state ∧ state.rounds.selectedCandidates ≠ [] ∧
        ¬Snapped state.rounds.events state.rounds.round.current := by
  unfold Uncovered
  rw [Nat.add_sub_cancel]
  refine and_congr_right fun _ => ⟨?_, ?_⟩
  · rintro ⟨candidate, member, isNone⟩
    refine ⟨List.ne_nil_of_mem member, fun snapped => ?_⟩
    have isSome := staged.present notYet snapped candidate member
    rw [isNone] at isSome
    cases isSome
  · rintro ⟨nonempty, missed⟩
    obtain ⟨candidate, member⟩ := List.exists_mem_of_ne_nil _ nonempty
    exact ⟨candidate, member, staged.absent _ missed candidate⟩

omit [LinearOrder AccountId] in
/-- When a snapshot is to be taken, none has been taken for the next round. -/
theorem Opened.notYet {point n : Nat} {ends : Nat → Nat → Prop} (opened : Opened point ends n state)
    (snapshot : state.rounds.round.shouldSnapshot n = true) :
    ¬Snapped state.rounds.events (state.rounds.round.current + 1) := by
  have positive := opened.logged.positive
  have begun := opened.begun
  have now : state.rounds.round.first + point = n := by
    simp only [RoundInfo.shouldSnapshot, decide_eq_true_eq, opened.timePoint] at snapshot
    omega
  rintro (isFirst | inLog)
  · omega
  · have isPassed := passed_iff.mp (opened.logged.mem_candidatesSelected.1.mp inLog)
    omega

/-- After the opening of a block with a snapshot, the state is stranded if and only if
the selection has nothing to fall back on. -/
theorem stranded_iff {ends : Nat → Nat → Prop} {point : Nat} (staged : Staged before.rounds)
    (onTime : OnTime point ends before) {parentHash : Nat}
    (allowed : before.rounds.round.shouldUpdate (before.blockNumber + 1) = true →
      ends before.rounds.round.first (before.blockNumber + 1))
    (opens : Opens config (before.blockNumber + 1) (enterBlock before parentHash) after)
    (snapshot : after.rounds.round.shouldSnapshot (before.blockNumber + 1) = true) :
    Uncovered config (after.rounds.round.current + 1) after ↔ Stranded config before := by
  have entered : Staged (enterBlock before parentHash).rounds := staged
  have opened := onTime.opens opens allowed
  obtain ⟨isRound, isSelected, sameEvents, samePool, sameGroups⟩ := opens.reads
  have notYet := opened.notYet snapshot
  have sameNothing : NothingToSelect config after ↔ NothingToSelect config before := by
    unfold NothingToSelect
    rw [samePool, sameGroups]
  have sameSnapped : Snapped after.rounds.events after.rounds.round.current ↔
      Snapped before.rounds.events before.openedRound.current := by
    unfold Snapped
    rw [isRound, sameEvents]
  rw [(entered.opens onTime.logged.mem_candidatesSelected.2 opens).uncovered_iff notYet,
    sameNothing, sameSnapped, isSelected]
  rw [isRound] at snapshot
  exact ⟨fun missed => ⟨snapshot, missed⟩, And.right⟩

/-- The next block panics in the selection if and only if it is stranded. -/
theorem selectionPanics_iff {ends : Nat → Nat → Prop} {point : Nat}
    (sound : Sound config before.stakes) (staged : Staged before.rounds)
    (onTime : OnTime point ends before) {parentHash : Nat}
    (allowed : before.rounds.round.shouldUpdate (before.blockNumber + 1) = true →
      ends before.rounds.round.first (before.blockNumber + 1)) :
    SelectionPanics config before parentHash ↔ Stranded config before := by
  have soundEntry : Sound config (enterBlock before parentHash).stakes := sound
  have runs := ends_onInitialize soundEntry (before.blockNumber + 1)
  unfold SelectionPanics
  rcases equation : onInitialize config (before.blockNumber + 1) (enterBlock before parentHash)
    with ⟨fault | _, after⟩
  · obtain ⟨middle, opens, snapshot, outcome⟩ := runs.of_error equation
    rw [← stranded_iff staged onTime allowed opens snapshot]
    rcases outcome with ⟨groupingFault, covered⟩ | ⟨rfl, uncovered⟩
    · refine iff_of_false ?_ covered
      rintro ⟨site, member, isFault⟩
      cases isFault
      rcases groupingFault with ⟨reason, isError⟩ | isSite | isSite | isSite
      · cases isError
      all_goals
        cases isSite
        simp at member
    · exact iff_of_true ⟨_, by simp, rfl⟩ uncovered
  · have block := runs.of_ok equation
    refine iff_of_false (by simp) fun stranded => ?_
    cases block with
    | plain opens noSnapshot =>
        rw [opens.reads.1, stranded.1] at noSnapshot
        cases noSnapshot
    | snapshots rounds opens snapshot selection =>
        exact selection.not_uncovered
          ((stranded_iff staged onTime allowed opens snapshot).mpr stranded)

/-- The selection of a block panics in a reachable state exactly if the state is
stranded; so it never panics in a run whose rounds are all long enough for their
snapshot. -/
theorem selection_panics_iff (config : Config AccountId Native)
    (spec : ChainSpec AccountId Native) :
    (∀ state, Reachable config spec state → ∀ parentHash,
      SelectionPanics config state parentHash ↔ Stranded config state) ∧
    ∀ state, Reached config spec (EndsRound (LongEnough spec)) state → ∀ parentHash,
      EndsRound (LongEnough spec) state (.nextBlock parentHash) →
        ¬SelectionPanics config state parentHash := by
  constructor
  · intro state reachable parentHash
    exact selectionPanics_iff reachable.sound reachable.staged reachable.onTime_any
      fun _ => trivial
  · intro state reached parentHash allowed panics
    have onTime := reached.onTime fun _ _ _ => id
    obtain ⟨_, _, _, missed⟩ :=
      (selectionPanics_iff reached.sound reached.staged onTime allowed).mp panics
    have enough : ∀ block next, LongEnough spec block next →
        passed spec.snapshotTimePoint block next = true := fun _ _ => passed_iff.mpr
    refine missed ?_
    unfold State.openedRound
    split
    next due =>
      exact .inr (onTime.logged.mem_candidatesSelected.1.mpr (enough _ _ (allowed due)))
    next => exact onTime.logged.current_selected enough

/-- The first round is shortened, and both candidates go offline in the second. -/
def strandedRun : List (Action Nat (Nat → Nat)) :=
  shortenedRound ++ [.extrinsic .root (.setBlocksPerRound 5), .extrinsic (.signed 1) .goOffline,
    .extrinsic (.signed 2) .goOffline, .nextBlock 0, .nextBlock 0]

/-- Without the snapshot for the second round, the selection for the third panics. -/
theorem selection_panics :
    ∃ state, Reachable mockRuntime pairGenesis state ∧ SelectionPanics mockRuntime state 0 := by
  obtain ⟨state, reachable, observed⟩ := Reached.exists_of_played
    (show (played mockRuntime pairGenesis strandedRun).map
      (fun state => match (onInitialize mockRuntime (state.blockNumber + 1)
          (enterBlock state 0)).1 with
        | .error fault => some fault
        | .ok _ => none) = some (some (.panic .selectedCandidatesHaveSnapshots))
      by decide +kernel)
  refine ⟨state, reachable, .selectedCandidatesHaveSnapshots, by simp, ?_⟩
  split at observed
  next fault failed => rw [failed, Option.some.inj observed]
  next => cases observed

/-- In a stranded state the panic is real, by the general criterion. -/
theorem selection_panics_iff_pair :
    ∃ state, Reachable mockRuntime pairGenesis state ∧
      (SelectionPanics mockRuntime state 0 ↔ Stranded mockRuntime state) := by
  obtain ⟨state, isPlayed⟩ := Option.isSome_iff_exists.mp
    (show (played mockRuntime pairGenesis strandedRun).isSome = true by decide +kernel)
  have reachable := Reached.of_played_any isPlayed
  exact ⟨state, reachable, (selection_panics_iff mockRuntime pairGenesis).1 state reachable 0⟩

end Popsicle
