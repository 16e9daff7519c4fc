import Popsicle.Groups

/-!
# What happens when a block is initialized

`Opens` says how a block starts or continues a round, `Selection` how the
sequencers of the next round are selected, and `Block` puts the two together.
-/

namespace Popsicle

open Foundation Exec Keyed

variable {AccountId Native : Type} [LinearOrder AccountId] {config : Config AccountId Native}

/-! ## Payouts -/

/-- The payout of a round is to be continued. -/
def PayoutDue (config : Config AccountId Native) (rounds : Rounds AccountId) (round : Nat)
    (payoutInfo : DelayedPayout) : Prop :=
  round + config.rewardPaymentDelay = rounds.round.current ∧
    rounds.delayedPayouts.get round = some payoutInfo

/-- The storage of rounds after one sequencer has been taken off a payout, and paid
if it has points. -/
def Rounds.taken (rounds : Rounds AccountId) (round : Nat) (payoutInfo : DelayedPayout)
    (sequencer : AccountId) (snapshot : SequencerSnapshot AccountId) : Rounds AccountId :=
  { rounds with
    atStake := Function.update rounds.atStake round ((rounds.atStake round).remove sequencer)
    awardedPts := Function.update rounds.awardedPts round
      ((rounds.awardedPts round).remove sequencer)
    orders := rounds.orders ++
      if rounds.awarded round sequencer = 0 then []
      else [{
        round, payoutInfo, sequencer, snapshot
        totalPoints := rounds.points round
        points := rounds.awarded round sequencer
        payments := orderedPayments payoutInfo (rounds.points round)
          (rounds.awarded round sequencer) sequencer snapshot }] }

/-- What `handle_delayed_payouts` does. -/
inductive Payout (config : Config AccountId Native) (before : State AccountId Native) :
    State AccountId Native → Prop where
  | nothing (noneDue : ∀ round payoutInfo, ¬PayoutDue config before.rounds round payoutInfo) :
      Payout config before before
  | finishes (round : Nat) (payoutInfo : DelayedPayout)
      (due : PayoutDue config before.rounds round payoutInfo)
      (finished : before.rounds.points round = 0 ∨ (before.rounds.atStake round).keys = ∅) :
      Payout config before { before with
        rounds := { before.rounds with
          delayedPayouts := before.rounds.delayedPayouts.remove round
          points := Function.update before.rounds.points round 0 } }
  | takes (round : Nat) (payoutInfo : DelayedPayout) (sequencer : AccountId)
      (snapshot : SequencerSnapshot AccountId) (native : Native)
      (due : PayoutDue config before.rounds round payoutInfo)
      (counted : before.rounds.points round ≠ 0)
      (isFirst : config.keyOrder.first (before.rounds.atStake round).keys = some sequencer)
      (stored : (before.rounds.atStake round).get sequencer = some snapshot) :
      Payout config before { before with
        stakes := { before.stakes with native }
        rounds := before.rounds.taken round payoutInfo sequencer snapshot }

omit [LinearOrder AccountId] in
theorem ends_payoutRewards (payments : List (Bond AccountId)) {stakes : Stakes AccountId Native}
    {excuse : Fault → Stakes AccountId Native → Prop} :
    (payoutRewards config payments).Ends stakes
      (fun _ after => ∃ native, after = { stakes with native }) excuse := by
  induction payments generalizing stakes with
  | nil => exact ⟨stakes.native, rfl⟩
  | cons payment rest ih =>
      simp only [payoutRewards, payoutReward, ends_bind, ends_write]
      split
      next native _ =>
        refine ih.imp ?_
        rintro _ _ ⟨last, rfl⟩
        exact ⟨last, rfl⟩
      next => exact ih

theorem ends_handleDelayedPayouts (state : State AccountId Native) {now : Nat}
    (isNow : now = state.rounds.round.current)
    {excuse : Fault → State AccountId Native → Prop} :
    (handleDelayedPayouts config now).Ends state
      (fun _ after => Payout config state after) excuse := by
  simp only [handleDelayedPayouts, ends_ite, ends_pure, ends_bind, ends_read]
  refine ⟨fun isEarly => .nothing fun round _ due => ?_, fun isLate => ?_⟩
  · have isCurrent := due.1
    omega
  split
  next missing =>
    refine .nothing fun round payoutInfo due => ?_
    have isRound : round = now - config.rewardPaymentDelay := by
      have isCurrent := due.1
      omega
    rw [← isRound, due.2] at missing
    cases missing
  next payoutInfo found =>
    have due : PayoutDue config state.rounds (now - config.rewardPaymentDelay) payoutInfo :=
      ⟨by omega, found⟩
    simp only [payOneSequencerReward, ends_bind, ends_read, ends_ite, ends_pure]
    refine ⟨fun noPoints => ⟨fun _ => .finishes _ payoutInfo due (.inl noPoints),
      fun other => absurd trivial other⟩, fun counted => ?_⟩
    split
    next noKeys =>
      have isEmpty := config.keyOrder.first_none _ noKeys
      simp only [ends_pure]
      exact ⟨fun _ => .finishes _ payoutInfo due (.inr isEmpty),
        fun other => absurd trivial other⟩
    next sequencer isFirst =>
      split
      next missing =>
        have isKey := config.keyOrder.first_mem _ _ isFirst
        rw [StorageMap.mem_keys, missing] at isKey
        cases isKey
      next snapshot stored =>
        simp only [writeRounds, onStakes, ends_bind, ends_write, ends_ite, ends_pure, ends_zoom,
          reduceCtorEq, false_implies, not_false_eq_true, true_implies, true_and]
        refine ⟨fun noPoints => ?_, fun hasPoints => ?_⟩
        · have taken : Payout config state _ := .takes _ payoutInfo sequencer snapshot
            state.stakes.native due counted isFirst stored
          simpa [Rounds.taken, noPoints] using taken
        · refine (ends_payoutRewards _).imp ?_
          rintro _ _ ⟨native, rfl⟩
          have taken : Payout config state _ := .takes _ payoutInfo sequencer snapshot
            native due counted isFirst stored
          simpa [Rounds.taken, hasPoints] using taken

/-! ## Selection -/

/-- The product of group size and group number does not fit a `u32`, and the build
checks for it. -/
def Overflows (config : Config AccountId Native) (groups : Groups AccountId) : Prop :=
  config.overflowChecks = true ∧ u32Max < groups.groupSize * groups.groupNumber

/-- How many sequencers `total_selected` asks for, unless it panics. -/
def Groups.toSelect (groups : Groups AccountId) : Nat :=
  groups.groupSize * groups.groupNumber % (u32Max + 1)

/-- The pool is empty, or no sequencer is to be selected. -/
def NothingToSelect (config : Config AccountId Native) (state : State AccountId Native) : Prop :=
  ¬Overflows config state.groups ∧
    (state.stakes.candidatePool.entries = [] ∨ state.groups.toSelect = 0)

omit [LinearOrder AccountId] in
theorem ends_totalSelected {groups : Groups AccountId} {state : State AccountId Native}
    {post : Nat → State AccountId Native → Prop}
    {excuse : Fault → State AccountId Native → Prop} :
    (totalSelected config groups : ChainM AccountId Native Nat).Ends state post excuse ↔
      (¬Overflows config groups → post groups.toSelect state) ∧
      (Overflows config groups → excuse (.panic .arithmeticOverflow) state) := by
  rw [totalSelected, ends_u32Result_nat]
  rfl

/-- The selected candidates are members of the pool, and there are some unless there
is nothing to select. -/
theorem ends_computeTopCandidates (state : State AccountId Native) :
    (computeTopCandidates config).Ends state
      (fun sequencers after => after = state ∧
        (sequencers = [] ↔ NothingToSelect config state) ∧
        sequencers.Subperm (state.stakes.candidatePool.entries.map Bond.owner) ∧
        sequencers.length ≤ state.groups.toSelect)
      (fun fault after => after = state ∧ fault = .panic .arithmeticOverflow ∧
        Overflows config state.groups) := by
  simp only [computeTopCandidates, ends_bind, ends_read, ends_totalSelected]
  refine ⟨fun fits => ?_, fun overflows => ⟨trivial, trivial, overflows⟩⟩
  simp only [ends_ite, ends_pure]
  refine ⟨fun isZero => ?_, fun notZero => ⟨fun isLong => ?_, fun isShort => ?_⟩⟩
  · refine ⟨trivial, ?_, List.nil_subperm, Nat.zero_le _⟩
    exact iff_of_true trivial ⟨fits, .inr isZero⟩
  · have length := List.length_insertionSort
      (fun left right : Bond AccountId => selectsBefore left right = true)
      state.stakes.candidatePool.entries
    refine ⟨trivial, ?_, ?_, ?_⟩
    · refine iff_of_false (fun isEmpty => ?_) fun nothing => ?_
      · have isZero := congrArg List.length isEmpty
        simp only [List.length_insertionSort, List.length_map, List.length_take,
          List.length_nil] at isZero
        omega
      · rcases nothing.2 with noPool | isZero
        · simp [noPool] at isLong
        · exact notZero isZero
    · refine (List.perm_insertionSort _ _).subperm.trans ?_
      refine ((List.take_sublist _ _).map Bond.owner).subperm.trans ?_
      exact ((List.perm_insertionSort _ _).map Bond.owner).subperm
    · simp only [List.length_insertionSort, List.length_map, List.length_take]
      omega
  · refine ⟨trivial, ?_, List.Subperm.refl _, ?_⟩
    · rw [List.map_eq_nil_iff]
      exact ⟨fun isEmpty => ⟨fits, .inl isEmpty⟩, fun nothing =>
        nothing.2.resolve_right notZero⟩
    · rw [List.length_map]
      omega

/-- The snapshot of a candidate with the given metadata and top list. -/
def snapshotOf (stakes : Stakes AccountId Native) (account : AccountId)
    (info : CandidateMetadata) (top : Delegations AccountId) : SequencerSnapshot AccountId where
  bond := info.bond
  delegations := top.delegations.map (rewardableOf (stakes.requests account))
  total := info.totalCounted - (top.delegations.map (uncountedOf (stakes.requests account))).sum

/-- The snapshots of some accounts are taken now, those of the others are as before. -/
def Snapshots (stakes : Stakes AccountId Native) (sequencers : List AccountId)
    (before after : StorageMap AccountId (SequencerSnapshot AccountId)) : Prop :=
  (∀ account ∈ sequencers, ∃ info top, stakes.candidateInfo.get account = some info ∧
    stakes.topDelegations.get account = some top ∧
    after.get account = some (snapshotOf stakes account info top)) ∧
  ∀ account, account ∉ sequencers → after.get account = before.get account

/-- An account without metadata or without a top list cannot be snapshotted. -/
def Unlisted (stakes : Stakes AccountId Native) (account : AccountId) : Prop :=
  stakes.candidateInfo.get account = none ∨ stakes.topDelegations.get account = none

theorem ends_snapshotCandidates (next : Nat) (sequencers : List AccountId)
    {state : State AccountId Native} :
    (snapshotCandidates next sequencers : ChainM AccountId Native Unit).Ends state
      (fun _ after => ∃ snapshots, after = { state with
          rounds := { state.rounds with
            atStake := Function.update state.rounds.atStake next snapshots } } ∧
        Snapshots state.stakes sequencers (state.rounds.atStake next) snapshots)
      (fun fault _ => fault = .panic .membersOfCandidateQ ∧
        ∃ account ∈ sequencers, Unlisted state.stakes account) := by
  induction sequencers generalizing state with
  | nil =>
      refine ⟨state.rounds.atStake next, ?_, by simp, fun _ _ => rfl⟩
      simp [Function.update_eq_self]
  | cons account rest ih =>
      simp only [snapshotCandidates, getRewardableDelegators, writeRounds, ends_bind, ends_read,
        ends_require, ends_write, ends_pure]
      refine ⟨fun info stored => ⟨fun top storedTop => ?_, fun noTop => ?_⟩, fun noInfo => ?_⟩
      · refine ih.mono ?_ ?_
        · rintro _ _ ⟨snapshots, rfl, taken, others⟩
          refine ⟨snapshots, by simp, fun other member => ?_, fun other absent => ?_⟩
          · by_cases inRest : other ∈ rest
            · exact taken other inRest
            · have isFirst : other = account := by simpa [inRest] using member
              subst isFirst
              refine ⟨info, top, stored, storedTop, ?_⟩
              rw [others other inRest]
              simp [snapshotOf]
          · obtain ⟨different, notInRest⟩ : other ≠ account ∧ other ∉ rest := by
              simpa using absent
            rw [others other notInRest]
            simp [different]
        · rintro _ _ ⟨rfl, other, member, unlisted⟩
          exact ⟨rfl, other, List.mem_cons_of_mem _ member, unlisted⟩
      · exact ⟨trivial, account, List.mem_cons_self, .inr noTop⟩
      · exact ⟨trivial, account, List.mem_cons_self, .inl noInfo⟩

/-- What `select_top_candidates` does to the storage of rounds. -/
inductive Selection (config : Config AccountId Native) (next : Nat)
    (before : State AccountId Native) : Rounds AccountId → Prop where
  | repeats (nothing : NothingToSelect config before)
      (covered : ∀ candidate ∈ before.rounds.selectedCandidates,
        ((before.rounds.atStake (next - 1)).get candidate).isSome = true) :
      Selection config next before { before.rounds with
        atStake := Function.update before.rounds.atStake next
          ((before.rounds.atStake next).overlay (before.rounds.atStake (next - 1))) }
  | selects (sequencers : List AccountId)
      (snapshots : StorageMap AccountId (SequencerSnapshot AccountId))
      (something : ¬NothingToSelect config before) (nonempty : sequencers ≠ [])
      (members : sequencers.Subperm (before.stakes.candidatePool.entries.map Bond.owner))
      (atMost : sequencers.length ≤ before.groups.toSelect)
      (taken : Snapshots before.stakes sequencers (before.rounds.atStake next) snapshots) :
      Selection config next before { before.rounds with
        atStake := Function.update before.rounds.atStake next snapshots
        selectedCandidates := sequencers }

/-- A selected candidate has no snapshot to fall back on. -/
def Uncovered (config : Config AccountId Native) (next : Nat) (state : State AccountId Native) :
    Prop :=
  NothingToSelect config state ∧ ∃ candidate ∈ state.rounds.selectedCandidates,
    (state.rounds.atStake (next - 1)).get candidate = none

/-- The members of the pool are listed, and there are not too many. -/
theorem Sound.listed_of_pool {stakes : Stakes AccountId Native} (sound : Sound config stakes)
    {account : AccountId} (member : account ∈ stakes.candidatePool.entries.map Bond.owner) :
    ¬Unlisted stakes account := by
  have inPool := sound.pool.isSome_lookup account
  rw [lookup_isSome.mpr member] at inPool
  have hasTop := sound.top account
  rintro (noInfo | noTop)
  · simp [activeTotals, activeTotal, noInfo] at inPool
  · rw [noTop] at hasTop
    cases isInfo : stakes.candidateInfo.get account with
    | none => simp [activeTotals, activeTotal, isInfo] at inPool
    | some info => simp [isInfo] at hasTop

/-- In a sound state the selection only fails for want of a snapshot. -/
theorem ends_selectTopCandidates {state : State AccountId Native}
    (sound : Sound config state.stakes) (next : Nat) :
    (selectTopCandidates config next).Ends state
      (fun _ after => ∃ rounds, after = { state with rounds } ∧ Selection config next state rounds)
      (fun fault _ => (fault = .panic .arithmeticOverflow ∧ Overflows config state.groups) ∨
        (fault = .panic .selectedCandidatesHaveSnapshots ∧ Uncovered config next state)) := by
  simp only [selectTopCandidates, ends_bind]
  refine (ends_computeTopCandidates state).mono ?_ ?_
  · rintro sequencers _ ⟨rfl, isNil, members, atMost⟩
    have length := members.length_le.trans_eq (List.length_map _)
    simp only [ends_ite, writeRounds, ends_bind, ends_read, ends_write, ends_ensure]
    refine ⟨fun isEmpty => ?_, fun notEmpty => ?_⟩
    · have nothing := isNil.mp (List.isEmpty_iff.mp isEmpty)
      refine ⟨fun covered => ⟨_, rfl, .repeats nothing covered⟩, fun uncovered => ?_⟩
      push Not at uncovered
      obtain ⟨candidate, member, absent⟩ := uncovered
      exact .inr ⟨trivial, nothing, candidate, member,
        Option.not_isSome_iff_eq_none.mp absent⟩
    · have nonempty : sequencers ≠ [] := fun isEmpty => notEmpty (List.isEmpty_iff.mpr isEmpty)
      refine (ends_snapshotCandidates next sequencers).mono ?_ ?_
      · rintro _ _ ⟨snapshots, rfl, taken⟩
        refine ⟨fun _ => ⟨_, rfl, .selects sequencers snapshots (fun nothing =>
          nonempty (isNil.mpr nothing)) nonempty members atMost taken⟩, fun tooMany => ?_⟩
        exact absurd (length.trans sound.pool.bounded) tooMany
      · rintro _ _ ⟨_, account, member, unlisted⟩
        exact absurd unlisted (sound.listed_of_pool (members.subset member))
  · rintro _ _ ⟨_, isOverflow, overflows⟩
    exact .inl ⟨isOverflow, overflows⟩

/-! ## The whole block -/

/-- The storage of rounds when a round starts at block `n`. -/
def Rounds.switched (config : Config AccountId Native) (n : Nat) (rounds : Rounds AccountId) :
    Rounds AccountId :=
  let round := rounds.round.update n
  let prepared := prepareStakingPayouts config round rounds
  { prepared with round, events := prepared.events ++ [.newRound round.first round.current] }

/-- The grouping of selected sequencers for the next round, and what it leaves behind. -/
def grouping (config : Config AccountId Native) (state : State AccountId Native)
    (selected : List AccountId) : Except Fault Unit × Groups AccountId :=
  triggerGroup config state.parentHash selected
    (state.rounds.round.first + state.rounds.round.length) (state.rounds.round.current + 1)
    state.groups

/-- A block starts the next round, or continues the payouts. -/
inductive Opens (config : Config AccountId Native) (n : Nat) (before : State AccountId Native) :
    State AccountId Native → Prop where
  | switches (due : before.rounds.round.shouldUpdate n = true) :
      Opens config n before { before with rounds := before.rounds.switched config n }
  | pays {after : State AccountId Native} (waits : before.rounds.round.shouldUpdate n = false)
      (payout : Payout config before after) : Opens config n before after

/-- What initializing block `n` does to the state of the chain. -/
inductive Block (config : Config AccountId Native) (n : Nat) (before : State AccountId Native) :
    State AccountId Native → Prop where
  | plain {after : State AccountId Native} (opens : Opens config n before after)
      (noSnapshot : after.rounds.round.shouldSnapshot n = false) : Block config n before after
  | snapshots {middle : State AccountId Native} (rounds : Rounds AccountId)
      (opens : Opens config n before middle)
      (snapshot : middle.rounds.round.shouldSnapshot n = true)
      (selection : Selection config (middle.rounds.round.current + 1) middle rounds) :
      Block config n before { middle with
        rounds := { rounds with
          events := rounds.events ++
            [.candidatesSelected (middle.rounds.round.current + 1)] }
        groups := (grouping config middle rounds.selectedCandidates).2 }

theorem Selection.not_uncovered {next : Nat} {state : State AccountId Native}
    {rounds : Rounds AccountId} (selection : Selection config next state rounds) :
    ¬Uncovered config next state := by
  rintro ⟨nothing, candidate, member, absent⟩
  cases selection with
  | repeats _ covered => simpa [absent] using covered candidate member
  | selects _ _ something => exact something nothing

/-- Payouts leave everything alone that extrinsics change, but the native currency. -/
theorem Payout.frame {before after : State AccountId Native} (payout : Payout config before after) :
    ∃ native rounds, after = { before with
      stakes := { before.stakes with native }
      rounds } := by
  cases payout with
  | nothing => exact ⟨before.stakes.native, before.rounds, rfl⟩
  | finishes => exact ⟨before.stakes.native, _, rfl⟩
  | takes _ _ _ _ native => exact ⟨native, _, rfl⟩

theorem Opens.frame {n : Nat} {before after : State AccountId Native}
    (opens : Opens config n before after) :
    ∃ native rounds, after = { before with
      stakes := { before.stakes with native }
      rounds } := by
  cases opens with
  | switches => exact ⟨before.stakes.native, _, rfl⟩
  | pays _ payout => exact payout.frame

theorem Opens.sound {n : Nat} {before after : State AccountId Native}
    (opens : Opens config n before after) (sound : Sound config before.stakes) :
    Sound config after.stakes := by
  obtain ⟨native, rounds, rfl⟩ := opens.frame
  exact ⟨sound.pool, sound.top, sound.bottom, sound.records, sound.apart, sound.requests⟩

/-- A round is changed, or the payouts continue, without fail. -/
theorem ends_changeRound (state : State AccountId Native) (n : Nat)
    {excuse : Fault → State AccountId Native → Prop} :
    (changeRound config n).Ends state
      (fun round after => Opens config n state after ∧ round = after.rounds.round) excuse := by
  simp only [changeRound, writeRounds, ends_bind, ends_read, ends_ite, ends_write, ends_pure]
  refine ⟨fun due => ⟨.switches due, trivial⟩, fun waits => ?_⟩
  have isFalse : state.rounds.round.shouldUpdate n = false := by simpa using waits
  refine (ends_handleDelayedPayouts state rfl).imp fun _ middle payout => ?_
  refine ⟨.pays isFalse payout, ?_⟩
  cases payout <;> rfl

/-- Why block `n` cannot be initialized: a product overflows, or the grouping panics,
or a selected candidate has no snapshot to fall back on. -/
def BlockFault (config : Config AccountId Native) (n : Nat) (before : State AccountId Native)
    (fault : Fault) : Prop :=
  ∃ middle, Opens config n before middle ∧ middle.rounds.round.shouldSnapshot n = true ∧
    ((GroupingFault fault ∧ ¬Uncovered config (middle.rounds.round.current + 1) middle) ∨
      (fault = .panic .selectedCandidatesHaveSnapshots ∧
        Uncovered config (middle.rounds.round.current + 1) middle))

theorem ends_onInitialize {state : State AccountId Native} (sound : Sound config state.stakes)
    (n : Nat) :
    (onInitialize config n).Ends state (fun _ after => Block config n state after)
      (fun fault _ => BlockFault config n state fault) := by
  rw [onInitialize, ends_bind]
  refine (ends_changeRound state n).imp ?_
  rintro _ middle ⟨opens, rfl⟩
  simp only [takeSnapshot, ends_ite, ends_bind, ends_pure]
  refine ⟨fun snapshot => ?_, fun noSnapshot => .plain opens (by simpa using noSnapshot)⟩
  refine (ends_selectTopCandidates (opens.sound sound) _).mono ?_ ?_
  · rintro _ _ ⟨rounds, rfl, selection⟩
    simp only [writeRounds, onGroups, ends_write, ends_read, ends_discardError, ends_zoom]
    refine (ends_triggerGroup _ _ _ _).computed.mono ?_ ?_
    · rintro _ groups ⟨_, isResult⟩
      rw [isResult]
      exact .snapshots rounds opens snapshot selection
    · rintro fault groups ⟨⟨groupingFault, _⟩, isResult⟩
      rw [isResult]
      refine ⟨fun _ _ => .snapshots rounds opens snapshot selection, ?_⟩
      rintro site rfl
      exact ⟨middle, opens, snapshot, .inl ⟨groupingFault, selection.not_uncovered⟩⟩
  · rintro fault _ (⟨rfl, overflows⟩ | ⟨rfl, uncovered⟩)
    · exact ⟨middle, opens, snapshot, .inl ⟨groupingFault_overflow, fun uncovered =>
        uncovered.1.1 overflows⟩⟩
    · exact ⟨middle, opens, snapshot, .inr ⟨rfl, uncovered⟩⟩

end Popsicle
