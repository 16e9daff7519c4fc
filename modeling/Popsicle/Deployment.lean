import Popsicle.Hindsight

/-!
# The chain as it is deployed

The constants that `runtime/src/lib.rs` gives the staking and the grouping pallet, the genesis
of the node's chain specifications, and what they mean for every run of the chain.
-/

namespace Popsicle

open Foundation

variable {AccountId Native : Type} [LinearOrder AccountId]

/-! ## Constants -/

/-- One token of the native currency. -/
def pops : Nat := 1000000000000

def oneBtc : Nat := 100000000

def milliBtc : Nat := oneBtc / 1000

def maxSequencers : Nat := 1000

/-- What the constants leave open. -/
structure Build (AccountId Native : Type) where
  palletAccount : AccountId
  currency : Currency AccountId Native
  keyOrder : KeyOrder AccountId
  overflowChecks : Bool

/-- The runtime of the chain.  The minimum balance of BTC is that of the genesis asset. -/
def Build.runtime (build : Build AccountId Native) : Config AccountId Native where
  minBlocksPerRound := 1440
  maxOfflineRounds := 5
  leaveCandidatesDelay := 3
  candidateBondLessDelay := 3
  revokeDelegationDelay := 3
  delegationBondLessDelay := 3
  rewardPaymentDelay := 2
  maxTopDelegationsPerCandidate := 300
  maxBottomDelegationsPerCandidate := 50
  maxDelegationsPerDelegator := 100
  minCandidateStk := 20000 * pops
  minDelegation := 10 * milliBtc
  roundReward := 1 * pops
  palletAccount := build.palletAccount
  maxCandidates := maxSequencers
  maxGroupSize := 100
  maxGroupNumber := 100
  maxRunningApp := 10
  asset := .withMinimum 100000000000
  currency := build.currency
  keyOrder := build.keyOrder
  overflowChecks := build.overflowChecks

/-- The genesis of `testnet_genesis`, where the grouping pallet keeps its defaults.  The
runtime builds the staking pallet first. -/
def testnetGenesis (alice bob : AccountId) (native : Native) : ChainSpec AccountId Native where
  candidates := [alice, bob]
  delegations := []
  sequencerCommission := ⟨50000000, by decide⟩
  blocksPerRound := 1440
  groupSize := 2
  groupNumber := 3
  groupingFirst := false
  btc account := if account = alice ∨ account = bob then 500000000000000000 else 0
  native := native

variable {build : Build AccountId Native} {alice bob : AccountId} {native : Native}
  {state : State AccountId Native}

theorem Build.paced (build : Build AccountId Native) (alice bob : AccountId) (native : Native) :
    Paced build.runtime (testnetGenesis alice bob native) where
  delay := by simp [Build.runtime]
  roomy := by simp [Build.runtime, maxSequencers]
  initial := by simp [Build.runtime, testnetGenesis]
  afterGenesis := by simp [ChainSpec.snapshotTimePoint, testnetGenesis, u32Max]
  inTime := by simp [Build.runtime, ChainSpec.snapshotTimePoint, testnetGenesis, u32Max]

theorem Build.metricsFit (build : Build AccountId Native) : MetricsFit build.runtime where
  number := by simp [Build.runtime, u32Max]
  product := by simp [Build.runtime, u32Max]

theorem Build.metered (build : Build AccountId Native) (alice bob : AccountId) (native : Native) :
    Metered build.runtime (testnetGenesis alice bob native).groupSize
      (testnetGenesis alice bob native).groupNumber where
  size := by simp [Build.runtime, testnetGenesis]
  number := by simp [Build.runtime, testnetGenesis]

/-! ## The chain -/

/-- Whatever happens on the deployed chain, every round has at least 1440 blocks and one
snapshot, and two rounds later all that is owed for it has been paid.  Nobody can be
reported as inactive, unless nobody got points in the oldest three of the last five rounds.
Any number of blocks can follow, as long as root asks for groups or the build lets
arithmetic wrap. -/
theorem deployed_chain
    (reachable : Reachable build.runtime (testnetGenesis alice bob native) state) :
    (Reached build.runtime (testnetGenesis alice bob native) (Asking build.runtime) state →
      ∀ parentHashes : List Nat, ∃ later,
        run (step build.runtime) state (parentHashes.map .nextBlock) = some later) ∧
    (∀ round first next between, Completed state.rounds.events round first next between →
      first + 1440 ≤ next ∧ between = [.candidatesSelected (round + 1)]) ∧
    ∀ round ended, EndedBefore build.runtime (testnetGenesis alice bob native) round ended state →
      round + 2 < state.rounds.round.current → ended.rounds.points round ≠ 0 →
      PaidOut round ended.rounds state.rounds ∧
        (state.rounds.round.current ≤ round + 5 → ReportsOpen build.runtime state →
          ∀ who sequencer, ¬Succeeds build.runtime state (.signed who)
            (.notifyInactiveSequencer sequencer)) := by
  have paced := build.paced alice bob native
  refine ⟨fun reached parentHashes => ?_,
    fun _ _ _ _ completed => paced.completed reachable completed, ?_⟩
  · exact paced.produces build.metricsFit (build.metered alice bob native)
      (fun _ => by simp [testnetGenesis]) parentHashes reached
  · intro round ended history isOver hasPoints
    refine ⟨paced.paidOut history hasPoints isOver, ?_⟩
    intro recent reports who sequencer succeeds
    have checked : Checked build.runtime state round := ⟨recent, by omega⟩
    have shown :=
      (succeeds_notify_iff reachable.sound reports who sequencer).mp succeeds round checked
    exact hasPoints (((paced.inactiveIn_iff history sequencer).mp shown).pointless isOver)

/-- A build of the runtime over plain accounts. -/
def plainBuild : Build Nat (Nat → Nat) where
  palletAccount := 0
  currency := mockCurrency
  keyOrder := increasingKeys
  overflowChecks := true

/-- The endowed accounts are those up to twelve. -/
def plainGenesis : ChainSpec Nat (Nat → Nat) :=
  testnetGenesis 1 2 fun account => if account ≤ 12 then 2 ^ 60 else 0

/-- An account gets BTC and delegates some, a sequencer gets points, and the round ends. -/
def plainRun : List (Action Nat (Nat → Nat)) :=
  [.nextBlock 0, .moveBtc 1 3 200000000000, .extrinsic (.signed 3) (.delegate 1 100000000000 0 0),
    .awardPoints 2 20] ++ List.replicate 1439 (.nextBlock 0)

/-- What is seen when the first round has ended, and when the third one has. -/
def plainPayout : Option (List Nat) :=
  (played plainBuild.runtime plainGenesis plainRun).bind fun ended =>
    (run (step plainBuild.runtime) ended (List.replicate 2880 (.nextBlock 0))).map fun later =>
      [ended.rounds.round.current, ended.rounds.round.first, ended.blockNumber,
        ended.rounds.points 1, ended.stakes.total, later.rounds.round.current]

/-- The first round is paid when the third one has ended, and the chain goes on. -/
theorem deployed_chain_plain :
    ∃ ended later, EndedBefore plainBuild.runtime plainGenesis 1 ended later ∧
      ended.rounds.points 1 = 20 ∧ ended.stakes.total = 100000000000 ∧
      PaidOut 1 ended.rounds later.rounds ∧
      ∀ parentHashes : List Nat, ∃ last,
        run (step plainBuild.runtime) later (parentHashes.map .nextBlock) = some last := by
  obtain ⟨ended, isPlayed, continued⟩ := Option.bind_eq_some_iff.mp
    (show plainPayout = some [2, 1440, 1440, 20, 100000000000, 4] by decide +kernel)
  obtain ⟨later, taken, seen⟩ := Option.map_eq_some_iff.mp continued
  simp only [List.cons.injEq, and_true] at seen
  obtain ⟨isNext, begins, number, points, staked, current⟩ := seen
  have asks : ∀ state, ∀ action ∈ plainRun ++ List.replicate 2880 (.nextBlock 0),
      Asking plainBuild.runtime state action := by
    intro state action member _
    simp only [plainRun, List.mem_append, List.mem_cons, List.mem_replicate, List.not_mem_nil,
      or_false] at member
    rcases member with ((rfl | rfl | rfl | rfl) | ⟨_, rfl⟩) | ⟨_, rfl⟩ <;> trivial
  have reached : Reached plainBuild.runtime plainGenesis (Asking plainBuild.runtime) ended :=
    Reached.of_played isPlayed fun start => admitted_of_forall
      (fun state action member => asks state action (List.mem_append_left _ member)) start
  have reaches : Reaches (step plainBuild.runtime) (Asking plainBuild.runtime) ended later :=
    Reaches.start.append (admitted_of_forall
      (fun state action member => asks state action (List.mem_append_right _ member)) ended) taken
  have history : EndedBefore plainBuild.runtime plainGenesis 1 ended later :=
    ⟨reached.reachable, ⟨isNext, begins.trans number.symm⟩, reaches.weaken fun _ _ _ => trivial⟩
  have hasPoints : ended.rounds.points 1 ≠ 0 := by
    rw [points]
    decide
  have isOver : 1 + 2 < later.rounds.round.current := by
    rw [current]
    decide
  have continuing : Reached plainBuild.runtime plainGenesis (Asking plainBuild.runtime) later :=
    reaches.invariant reached fun _ _ _ before admitted taken => before.next admitted taken
  obtain ⟨goesOn, _, paid⟩ := deployed_chain continuing.reachable
  exact ⟨ended, later, history, points, staked, (paid 1 ended history isOver hasPoints).1,
    goesOn continuing⟩

end Popsicle
