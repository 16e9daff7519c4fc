import Popsicle.Blocks
import Popsicle.Soundness

/-!
# Steps and runs of the chain

Every step is an update between blocks or the initialization of a block, and the
genesis build is a series of settled effects.  `Reachable` collects the states of
all runs; an invariant of stakes only has to be kept by what settles.
-/

namespace Popsicle

open Foundation Exec Keyed

variable {AccountId Native : Type} [LinearOrder AccountId] {config : Config AccountId Native}

/-! ## Steps -/

/-- A step is an update, or it awards points, or it initializes the next block. -/
inductive Transition (config : Config AccountId Native) (may : Withdrawal AccountId → Prop)
    (signs : AccountId → Prop) (before : State AccountId Native) :
    Action AccountId Native → State AccountId Native → Prop where
  | update {action : Action AccountId Native} {after : State AccountId Native}
      (update : Update config may signs before after) :
      Transition config may signs before action after
  | awards (sequencer : AccountId) (points : Nat) :
      Transition config may signs before (.awardPoints sequencer points)
        { before with rounds := awardPointsToSequencer sequencer points before.rounds }
  | block (parentHash : Nat) {after : State AccountId Native}
      (block : Block config (before.blockNumber + 1) (enterBlock before parentHash) after) :
      Transition config may signs before (.nextBlock parentHash) after

/-- The due withdrawals of an action are allowed in the state it is taken in. -/
def Allows (allowed : Stakes AccountId Native → Withdrawal AccountId → Prop)
    (state : State AccountId Native) : Action AccountId Native → Prop
  | .extrinsic _ call => Withdraws (allowed state.stakes) state.rounds.round state.stakes call
  | _ => True

/-- Without a restriction on withdrawals, every action is allowed. -/
theorem allows_any (state : State AccountId Native) (action : Action AccountId Native) :
    Allows (fun _ _ => True) state action := by
  cases action with
  | extrinsic origin call =>
      cases call with
      | executeLeaveCandidates | executeDelegationRequest => exact fun _ => trivial
      | _ => trivial
  | _ => trivial

section Step

variable {allowed : Stakes AccountId Native → Withdrawal AccountId → Prop}
  {signs : AccountId → Prop}
  {state after : State AccountId Native} {action : Action AccountId Native}

theorem step_nextBlock_iff {parentHash : Nat} :
    step config state (.nextBlock parentHash) = some after ↔
      onInitialize config (state.blockNumber + 1) (enterBlock state parentHash) =
        (.ok (), after) := by
  simp only [step]
  split
  next final equation => simp [equation]
  next fault last equation => simp [equation]

/-- A step is a transition in which nobody else than its signer puts in BTC. -/
theorem transition_of_signed (sound : Sound config state.stakes)
    (signed : ∀ who call, action = .extrinsic (.signed who) call → who ≠ config.palletAccount →
      signs who)
    (admitted : Allows allowed state action) (taken : step config state action = some after) :
    Transition config (allowed state.stakes) signs state action after := by
  cases action with
  | nextBlock parentHash =>
      simp only [step] at taken
      split at taken
      next final equation =>
        cases taken
        have soundEntry : Sound config (enterBlock state parentHash).stakes := sound
        have ends := ends_onInitialize soundEntry (state.blockNumber + 1)
        exact .block parentHash (ends.of_ok equation)
      next => cases taken
  | extrinsic origin call =>
      simp only [step] at taken
      split at taken
      next => cases taken
      next allows =>
        cases taken
        refine .update (update_applyExtrinsic sound origin call ?_ admitted)
        rintro who rfl
        refine signed who call rfl ?_
        rintro rfl
        exact allows (.inr rfl)
  | awardPoints sequencer points =>
      simp only [step] at taken
      split at taken
      next => cases taken
      next =>
        cases taken
        exact .awards sequencer points
  | moveBtc source dest amount =>
      simp only [step] at taken
      split at taken
      next => cases taken
      next allows =>
        rw [Option.map_eq_some_iff] at taken
        obtain ⟨balance, moved, rfl⟩ := taken
        push Not at allows
        refine .update (.stakes _ ⟨.moves _ fun credits => ?_, sound.pool⟩)
        rw [credits moved config.palletAccount allows.2.symm]
        split <;> omega
  | changeNative native =>
      simp only [step] at taken
      split at taken
      next => cases taken
      next =>
        cases taken
        exact .update (.stakes _ ⟨.native native, sound.pool⟩)

theorem transition_of_step (sound : Sound config state.stakes)
    (outside : ∀ account, account ≠ config.palletAccount → signs account)
    (admitted : Allows allowed state action) (taken : step config state action = some after) :
    Transition config (allowed state.stakes) signs state action after :=
  transition_of_signed sound (fun who _ _ => outside who) admitted taken

end Step

section Frames

variable {may : Withdrawal AccountId → Prop} {signs : AccountId → Prop}
  {before after : State AccountId Native}

/-- Initializing a block leaves everything alone that extrinsics change, but the
native currency. -/
theorem Block.frame {n : Nat} (block : Block config n before after) :
    (∃ native, after.stakes = { before.stakes with native }) ∧
      after.blockNumber = before.blockNumber := by
  cases block with
  | plain opens =>
      obtain ⟨native, rounds, rfl⟩ := opens.frame
      exact ⟨⟨native, rfl⟩, rfl⟩
  | snapshots rounds opens =>
      obtain ⟨native, rounds, rfl⟩ := opens.frame
      exact ⟨⟨native, rfl⟩, rfl⟩

/-- What a step does to stakes settles. -/
theorem Transition.settles {action : Action AccountId Native}
    (transition : Transition config may signs before action after)
    (sound : Sound config before.stakes) :
    Settles config may signs before.stakes after.stakes := by
  cases transition with
  | update update =>
      cases update with
      | stakes stakes settles => exact settles
      | commission | length | marking | groups =>
          exact ⟨.native before.stakes.native, sound.pool⟩
  | awards => exact ⟨.native before.stakes.native, sound.pool⟩
  | block parentHash block =>
      obtain ⟨⟨native, isNative⟩, _⟩ := block.frame
      rw [isNative]
      exact ⟨.native native, sound.pool⟩

end Frames

/-! ## Genesis -/

section Genesis

variable {allowed : Stakes AccountId Native → Withdrawal AccountId → Prop}
  {signs : AccountId → Prop}
  {holds : Stakes AccountId Native → Prop} {stakes : Stakes AccountId Native}

/-- A property of stakes is kept by whatever settles. -/
def Keeps (config : Config AccountId Native)
    (allowed : Stakes AccountId Native → Withdrawal AccountId → Prop) (signs : AccountId → Prop)
    (holds : Stakes AccountId Native → Prop) : Prop :=
  ∀ before after, Sound config before → holds before →
    Settles config (allowed before) signs before after → holds after

theorem ends_attempted (sound : Sound config stakes) (initial : holds stakes)
    (keeps : Keeps config allowed signs holds) {body : StakesM AccountId Native Unit}
    {excuse : Fault → Stakes AccountId Native → Prop}
    (ends : body.Ends stakes (fun _ after => Settles config (allowed stakes) signs stakes after)
      excuse) :
    (attempt (transactional body)).Ends stakes
      (fun _ after => Sound config after ∧ holds after) (fun _ _ => True) := by
  rw [ends_attempt, ends_transactional]
  refine ends.mono (fun _ after settles => ?_) fun _ _ _ => ?_
  · exact ⟨sound.settles settles, keeps stakes after sound initial settles⟩
  · exact ⟨fun _ _ => ⟨sound, initial⟩, fun _ _ => trivial⟩

theorem ends_buildCandidates (keeps : Keeps config allowed signs holds)
    (candidates : List AccountId) (candidateCount : Nat) (sound : Sound config stakes)
    (initial : holds stakes) :
    (buildCandidates config candidates candidateCount).Ends stakes
      (fun _ after => Sound config after ∧ holds after) (fun _ _ => True) := by
  induction candidates generalizing stakes candidateCount with
  | nil => exact ⟨sound, initial⟩
  | cons candidate rest ih =>
      simp only [buildCandidates, ends_bind, ends_read, ends_ensure]
      refine ⟨fun _ => ?_, fun _ => trivial⟩
      refine (ends_attempted sound initial keeps
        (ends_joinCandidatesInner sound candidate candidateCount)).imp ?_
      rintro joined after ⟨soundAfter, held⟩
      exact ih _ soundAfter held

theorem ends_buildDelegations (keeps : Keeps config allowed signs holds)
    (delegations : List (AccountId × AccountId × Nat))
    (colDelegatorCount delDelegationCount : AccountId → Nat) (sound : Sound config stakes)
    (initial : holds stakes) (signed : ∀ entry ∈ delegations, signs entry.1) :
    (buildDelegations config delegations colDelegatorCount delDelegationCount).Ends stakes
      (fun _ after => Sound config after ∧ holds after) (fun _ _ => True) := by
  induction delegations generalizing stakes colDelegatorCount delDelegationCount with
  | nil => exact ⟨sound, initial⟩
  | cons entry rest ih =>
      obtain ⟨delegator, target, balance⟩ := entry
      simp only [buildDelegations, reducibleBalance, ends_bind, ends_read, ends_pure,
        ends_ensure, ends_ite]
      refine ⟨fun _ => ?_, fun _ => trivial⟩
      refine (ends_attempted sound initial keeps (ends_delegateInner sound balance
        (colDelegatorCount target) (delDelegationCount delegator)
        (signed _ List.mem_cons_self))).imp ?_
      rintro delegated after ⟨soundAfter, held⟩
      have restSigned : ∀ entry ∈ rest, signs entry.1 :=
        fun entry member => signed entry (List.mem_cons_of_mem _ member)
      exact ⟨fun _ => ih _ _ soundAfter held restSigned,
        fun _ => ih _ _ soundAfter held restSigned⟩

/-- The point of a round at which the snapshot for the next one is taken. -/
def ChainSpec.snapshotTimePoint (spec : ChainSpec AccountId Native) : Nat :=
  spec.blocksPerRound * 3 % (u32Max + 1) / 4

/-- The state that the genesis build ends in, in terms of the stakes it has built. -/
def Started (config : Config AccountId Native) (spec : ChainSpec AccountId Native)
    (stakes : Stakes AccountId Native) (start : State AccountId Native) : Prop :=
  ∃ rounds, Selection config 1
      { spec.initial with
        stakes
        rounds := { spec.initial.rounds with sequencerCommission := spec.sequencerCommission } }
      rounds ∧
    start = { spec.initial with
      stakes
      rounds := { rounds with
        round := { current := 1, first := 0, length := spec.blocksPerRound
                   snapshotTimePoint := spec.snapshotTimePoint }
        events := rounds.events ++ [.newRound 0 1] }
      groups := { spec.initial.groups with
        groupSize := spec.groupSize, groupNumber := spec.groupNumber } }

theorem ChainSpec.sound_initial (spec : ChainSpec AccountId Native) :
    Sound config spec.initial.stakes where
  pool :=
    { sorted := by simp [initial, SortedByOwner]
      bounded := Nat.zero_le _
      amounts := fun _ => rfl }
  top := fun _ => rfl
  bottom := fun _ => rfl
  records := by simp [initial]
  apart := by simp [initial]
  requests := by simp [initial]

/-- The genesis build ends in a sound state that has what settled effects keep. -/
theorem started_of_genesis {spec : ChainSpec AccountId Native} {start : State AccountId Native}
    (keeps : Keeps config allowed signs holds) (initial : holds spec.initial.stakes)
    (signed : ∀ entry ∈ spec.delegations, signs entry.1)
    (built : genesis config spec = some start) :
    ∃ stakes, Sound config stakes ∧ holds stakes ∧ Started config spec stakes start := by
  have builds : (buildGenesis config spec).Ends spec.initial
      (fun _ after => ∃ stakes, Sound config stakes ∧ holds stakes ∧
        Started config spec stakes { after with
          groups := { after.groups with
            groupSize := spec.groupSize, groupNumber := spec.groupNumber } })
      (fun _ _ => True) := by
    simp only [buildGenesis, onStakes, writeRounds, ends_bind, ends_ensure, ends_zoom, ends_write]
    refine ⟨fun _ => ?_, fun _ => trivial⟩
    refine (ends_buildCandidates keeps spec.candidates 0 spec.sound_initial initial).imp ?_
    rintro _ stakes₁ ⟨sound₁, held₁⟩
    refine (ends_buildDelegations keeps spec.delegations (fun _ => 0) (fun _ => 0) sound₁ held₁
      signed).imp ?_
    rintro _ stakes ⟨sound, held⟩
    refine (ends_selectTopCandidates sound 1).mono ?_ fun _ _ _ => trivial
    rintro _ _ ⟨rounds, rfl, selection⟩
    rw [ends_u32Result_nat]
    exact ⟨fun _ => ⟨stakes, sound, held, rounds, selection, rfl⟩, fun _ => trivial⟩
  unfold genesis at built
  split at built
  next after equation =>
    cases built
    exact builds.of_ok equation
  next => cases built

theorem exists_started {spec : ChainSpec AccountId Native} {start : State AccountId Native}
    (built : genesis config spec = some start) :
    ∃ stakes, Sound config stakes ∧ Started config spec stakes start := by
  have keeps : Keeps config (fun _ _ => True) (fun _ => True) fun _ => True :=
    fun _ _ _ _ _ => trivial
  obtain ⟨stakes, sound, _, started⟩ :=
    started_of_genesis keeps trivial (fun _ _ => trivial) built
  exact ⟨stakes, sound, started⟩

end Genesis

/-! ## Runs -/

/-- Some run from genesis, all of whose actions are admitted, leads to a state. -/
def Reached (config : Config AccountId Native) (spec : ChainSpec AccountId Native)
    (admits : State AccountId Native → Action AccountId Native → Prop)
    (state : State AccountId Native) : Prop :=
  ∃ start, genesis config spec = some start ∧ Reaches (step config) admits start state

/-- Some run from genesis leads to a state. -/
abbrev Reachable (config : Config AccountId Native) (spec : ChainSpec AccountId Native) :
    State AccountId Native → Prop :=
  Reached config spec fun _ _ => True

/-- The state that a list of actions leads to from genesis. -/
def played (config : Config AccountId Native) (spec : ChainSpec AccountId Native)
    (actions : List (Action AccountId Native)) : Option (State AccountId Native) :=
  (genesis config spec).bind fun start => run (step config) start actions

namespace Reached

variable {spec : ChainSpec AccountId Native} {state : State AccountId Native}
  {allowed : Stakes AccountId Native → Withdrawal AccountId → Prop} {signs : AccountId → Prop}
  {admits : State AccountId Native → Action AccountId Native → Prop}

/-- Every state that a run reaches is reachable. -/
theorem reachable (reached : Reached config spec admits state) : Reachable config spec state := by
  obtain ⟨start, built, reaches⟩ := reached
  exact ⟨start, built, reaches.weaken fun _ _ _ => trivial⟩

theorem next {action : Action AccountId Native} {after : State AccountId Native}
    (reached : Reached config spec admits state) (admitted : admits state action)
    (taken : step config state action = some after) : Reached config spec admits after := by
  obtain ⟨start, built, reaches⟩ := reached
  exact ⟨start, built, reaches.next action admitted taken⟩

/-- A list of actions that are all admitted reaches the state it leads to. -/
theorem of_played {actions : List (Action AccountId Native)}
    (isPlayed : played config spec actions = some state)
    (admitted : ∀ start, Admitted (step config) admits start actions) :
    Reached config spec admits state := by
  obtain ⟨start, built, taken⟩ := Option.bind_eq_some_iff.mp isPlayed
  exact ⟨start, built, Reaches.start.append (admitted start) taken⟩

/-- A list of actions that all pass a check reaches the state it leads to. -/
theorem of_checked {check : State AccountId Native → Action AccountId Native → Bool}
    {actions : List (Action AccountId Native)}
    (right : ∀ state action, check state action = true → admits state action)
    (taken : (genesis config spec).bind
      (fun start => checkedRun (step config) check start actions) = some state) :
    Reached config spec admits state := by
  obtain ⟨start, built, checked⟩ := Option.bind_eq_some_iff.mp taken
  exact ⟨start, built, Reaches.start.of_checked right checked⟩

theorem of_played_any {actions : List (Action AccountId Native)}
    (isPlayed : played config spec actions = some state) : Reachable config spec state :=
  of_played isPlayed fun start => admitted_of_forall (fun _ _ _ => trivial) start

/-- A list of actions shows what some reachable state is like. -/
theorem exists_of_played {α : Type} {actions : List (Action AccountId Native)}
    {observe : State AccountId Native → α} {value : α}
    (shows : (played config spec actions).map observe = some value) :
    ∃ state, Reachable config spec state ∧ observe state = value := by
  obtain ⟨state, isPlayed, observed⟩ := Option.map_eq_some_iff.mp shows
  exact ⟨state, of_played_any isPlayed, observed⟩

/-- What settled effects keep holds of the stakes in every state a run reaches, if its
due withdrawals are allowed. -/
theorem stakes {holds : Stakes AccountId Native → Prop} (reached : Reached config spec admits state)
    (allows : ∀ state action, admits state action → Allows allowed state action)
    (keeps : Keeps config allowed signs holds) (initial : holds spec.initial.stakes)
    (outside : ∀ account, account ≠ config.palletAccount → signs account)
    (signed : ∀ entry ∈ spec.delegations, signs entry.1) :
    Sound config state.stakes ∧ holds state.stakes := by
  obtain ⟨start, built, reaches⟩ := reached
  obtain ⟨stakes, sound, held, rounds, _, rfl⟩ := started_of_genesis keeps initial signed built
  have kept : ∀ before action after, Sound config before.stakes ∧ holds before.stakes →
      admits before action → step config before action = some after →
      Sound config after.stakes ∧ holds after.stakes := by
    rintro before action after ⟨sound, held⟩ admitted taken
    have settles := (transition_of_step sound outside (allows before action admitted)
      taken).settles sound
    exact ⟨sound.settles settles, keeps _ _ sound held settles⟩
  exact reaches.invariant ⟨sound, held⟩ kept

theorem sound (reached : Reached config spec admits state) : Sound config state.stakes := by
  have keeps : Keeps config (fun _ _ => True) (fun _ => True) fun _ => True :=
    fun _ _ _ _ _ => trivial
  exact (reached.stakes (fun state action _ => allows_any state action) keeps trivial
    (fun _ _ => trivial) fun _ _ => trivial).1

/-- What every transition keeps holds in every state a run reaches, if its due
withdrawals are allowed. -/
theorem chain {holds : State AccountId Native → Prop} (reached : Reached config spec admits state)
    (allows : ∀ state action, admits state action → Allows allowed state action)
    (initial : ∀ stakes start, Started config spec stakes start → holds start)
    (kept : ∀ before action after, Reached config spec admits before → holds before →
      admits before action →
      Transition config (allowed before.stakes) (fun _ => True) before action after → holds after) :
    holds state := by
  obtain ⟨start, built, reaches⟩ := reached
  obtain ⟨stakes, _, started⟩ := exists_started built
  have preserved : ∀ before action after, Reached config spec admits before ∧ holds before →
      admits before action → step config before action = some after →
      Reached config spec admits after ∧ holds after := by
    rintro before action after ⟨reached, held⟩ admitted taken
    have transition := transition_of_step reached.sound (fun _ _ => trivial)
      (allows before action admitted) taken
    exact ⟨reached.next admitted taken, kept before action after reached held admitted transition⟩
  exact (reaches.invariant ⟨⟨start, built, .start⟩, initial stakes start started⟩ preserved).2

/-- A state that is reached from a reachable one is reachable. -/
theorem later {later : State AccountId Native} (reachable : Reachable config spec state)
    (reaches : Reaches (step config) admits state later) : Reachable config spec later := by
  refine reaches.invariant reachable ?_
  exact fun before action after reached _ taken => reached.next trivial taken

/-- What a step of a run does, whatever is withdrawn. -/
theorem transition {action : Action AccountId Native} {after : State AccountId Native}
    (reached : Reached config spec admits state) (taken : step config state action = some after) :
    Transition config (fun _ => True) (fun _ => True) state action after :=
  transition_of_step reached.sound (fun _ _ => trivial) (allows_any state action) taken

/-- What every step keeps from a reachable state on holds in all later states. -/
theorem along {holds : State AccountId Native → Prop} {later : State AccountId Native}
    (reachable : Reachable config spec state) (reaches : Reaches (step config) admits state later)
    (kept : ∀ before action after, Reachable config spec before → holds before →
      admits before action → step config before action = some after → holds after)
    (initial : holds state) : Reachable config spec later ∧ holds later := by
  have preserved : ∀ before action after, Reachable config spec before ∧ holds before →
      admits before action → step config before action = some after →
      Reachable config spec after ∧ holds after := by
    rintro before action after ⟨reached, held⟩ admitted taken
    exact ⟨reached.next trivial taken, kept before action after reached held admitted taken⟩
  exact reaches.invariant ⟨reachable, initial⟩ preserved

end Reached

end Popsicle
