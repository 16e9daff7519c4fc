import Popsicle.Custody
import Popsicle.Capital
import Popsicle.Totals

/-!
# Custody and capital in every reachable state

What the pallet holds for an account is its recorded stake as long as candidates
leave without a bond of their own, and `Total` is the capital that is staked as
long as no stale total is taken off it.
-/

namespace Popsicle

open Foundation Exec Keyed

variable {AccountId Native : Type} [LinearOrder AccountId] {config : Config AccountId Native}
  {spec : ChainSpec AccountId Native} {state : State AccountId Native}

/-! ## Custody -/

/-- A due exit is clean, and the candidate has no bond of its own. -/
def UnbondedWithdrawal (stakes : Stakes AccountId Native) : Withdrawal AccountId → Prop
  | .exit candidate => CleanExit stakes.delegatorState candidate ∧
      ∀ info, stakes.candidateInfo.get candidate = some info → info.bond = 0
  | .decrease _ _ | .schedules => True

/-- Candidates only leave cleanly and without a bond of their own. -/
def LeavesUnbonded (state : State AccountId Native) (action : Action AccountId Native) : Prop :=
  Allows UnbondedWithdrawal state action

theorem ChainSpec.custody_initial (spec : ChainSpec AccountId Native) :
    Custody config spec.initial.stakes := by
  intro account _
  simp [initial, sent, pulled, stakeOf, Ledger.movedBetween]

omit [LinearOrder AccountId] in
theorem ChainSpec.covered_initial (spec : ChainSpec AccountId Native) :
    Covered config spec.initial.stakes := by
  simp [Covered, staked, stakedBy, initial, StorageMap.sum, StorageMap.empty]

/-- The escrow covers all stakes in every reachable state, but for what the asset has burnt,
unless its account made a delegation of the genesis configuration. -/
theorem Reached.covered {admits : State AccountId Native → Action AccountId Native → Prop}
    (reached : Reached config spec admits state) (credits : config.asset.Credits)
    (outside : ∀ entry ∈ spec.delegations, entry.1 ≠ config.palletAccount) :
    Covered config state.stakes := by
  have keeps : Keeps config (fun _ _ => True) (· ≠ config.palletAccount) (Covered config) :=
    fun _ _ sound covered settles => covered.effect sound credits settles.1 fun _ => id
  exact (reached.stakes (fun state action _ => allows_any state action) keeps
    spec.covered_initial (fun _ => id) outside).2

theorem Reached.unburnt {admits : State AccountId Native → Action AccountId Native → Prop}
    (reached : Reached config spec admits state) (exact' : config.asset.Exact) :
    state.stakes.btc.burnt = 0 := by
  have keeps : Keeps config (fun _ _ => True) (fun _ => True)
      fun stakes => stakes.btc.burnt = 0 :=
    fun _ _ _ unburnt settles => (settles.1.burnt exact').trans unburnt
  exact (reached.stakes (fun state action _ => allows_any state action) keeps rfl
    (fun _ _ => trivial) fun _ _ => trivial).2

theorem Reached.solvent {admits : State AccountId Native → Action AccountId Native → Prop}
    (reached : Reached config spec admits state) (exact' : config.asset.Exact)
    (outside : ∀ entry ∈ spec.delegations, entry.1 ≠ config.palletAccount) :
    Solvent config state.stakes :=
  (reached.covered exact'.credits outside).solvent (reached.unburnt exact')

/-- What the pallet has pulled from an account and not sent back is its recorded
stake, in every state reached without the exit of a bonded candidate; and the escrow
holds all recorded stakes if transfers are exact. -/
theorem custody_kept (reached : Reached config spec LeavesUnbonded state) :
    Custody config state.stakes ∧
      (config.asset.Exact → (∀ entry ∈ spec.delegations, entry.1 ≠ config.palletAccount) →
        Solvent config state.stakes) := by
  have keeps : Keeps config UnbondedWithdrawal (fun _ => True)
      fun stakes => Agrees config stakes ∧ Custody config stakes := by
    rintro before after sound ⟨agrees, custody⟩ settles
    exact ⟨agrees.effect sound settles.1 fun _ => And.left,
      custody.effect agrees settles.1 sound fun _ info exits => exits.2 info⟩
  have kept := reached.stakes (fun _ _ => id) keeps ⟨spec.agrees_initial, spec.custody_initial⟩
    (fun _ _ => trivial) fun _ _ => trivial
  exact ⟨kept.2.2, reached.solvent⟩

theorem custody_kept_crowded :
    ∃ state, Reached mockRuntime crowdedGenesis LeavesUnbonded state ∧
      Custody mockRuntime state.stakes ∧
      Solvent mockRuntime state.stakes := by
  obtain ⟨state, reached⟩ := reached_crowdedRun UnbondedWithdrawal fun _ => trivial
  obtain ⟨custody, solvent⟩ := custody_kept reached
  exact ⟨state, reached, custody, solvent mock_hasMinimum.exact (by decide)⟩

/-- A candidate bonds ten of its own and leaves. -/
def bondedExit : List (Action Nat (Nat → Nat)) :=
  [.nextBlock 0,
    .extrinsic (.signed 1) (.candidateBondMore 10),
    .extrinsic (.signed 1) (.scheduleLeaveCandidates 2)] ++
  List.replicate 9 (.nextBlock 0) ++
  [.extrinsic (.signed 1) (.executeLeaveCandidates 1 0)]

/-- The bond of a candidate that has left is never sent back. -/
theorem custody_broken :
    ∃ state, Reachable mockRuntime (mockGenesis [1, 2] []) state ∧
      ¬Custody mockRuntime state.stakes := by
  obtain ⟨state, reachable, observed⟩ := Reached.exists_of_played
    (show (played mockRuntime (mockGenesis [1, 2] []) bondedExit).map
      (fun state => (pulled mockRuntime state.stakes.btc 1, sent mockRuntime state.stakes.btc 1,
        stakeOf state.stakes.candidateInfo state.stakes.delegatorState 1)) =
      some (10, 0, 0) by decide +kernel)
  simp only [Prod.mk.injEq] at observed
  refine ⟨state, reachable, fun custody => ?_⟩
  have balance := custody 1 (by decide)
  omega

/-! ## Capital -/

/-- A due exit is clean, and what it takes off `Total` is what leaves. -/
def CountedWithdrawal (stakes : Stakes AccountId Native) : Withdrawal AccountId → Prop
  | .exit candidate => CleanExit stakes.delegatorState candidate ∧ CountedExit stakes candidate
  | .decrease _ _ | .schedules => True

/-- Candidates only leave cleanly, and with totals that are what leaves. -/
def LeavesCounted (state : State AccountId Native) (action : Action AccountId Native) : Prop :=
  Allows CountedWithdrawal state action

/-- `Total` is all bonds of candidates and all delegations of delegators. -/
def CapitalExact (stakes : Stakes AccountId Native) : Prop :=
  stakes.total = stakes.candidateInfo.sum (fun _ info => info.bond) +
    stakes.delegatorState.sum fun _ state => Delegations.sumAmounts state.delegations.entries

theorem Sound.staked_eq {stakes : Stakes AccountId Native} (sound : Sound config stakes) :
    staked stakes = stakes.candidateInfo.sum (fun _ info => info.bond) +
      stakes.delegatorState.sum fun _ state =>
        Delegations.sumAmounts state.delegations.entries := by
  unfold staked stakedBy
  congr 1
  exact StorageMap.sum_congr fun account state stored => (sound.records account state stored).total

/-- `Total` is the capital that is staked, in every state reached by counted exits. -/
theorem capital_exact (reached : Reached config spec LeavesCounted state) :
    CapitalExact state.stakes := by
  have keeps : Keeps config CountedWithdrawal (fun _ => True)
      fun stakes => Agrees config stakes ∧ Counted stakes := by
    rintro before after sound ⟨agrees, counted⟩ settles
    exact ⟨agrees.effect sound settles.1 fun _ => And.left,
      counted.effect agrees sound settles.1 (fun _ => And.left) fun _ => And.right⟩
  have initial : Counted spec.initial.stakes := by
    simp [Counted, staked, stakedBy, ChainSpec.initial, StorageMap.sum, StorageMap.empty]
  obtain ⟨sound, _, counted⟩ := reached.stakes (fun _ _ => id) keeps
    ⟨spec.agrees_initial, initial⟩ (fun _ _ => trivial) fun _ _ => trivial
  exact counted.trans sound.staked_eq

theorem capital_exact_crowded :
    ∃ state, Reached mockRuntime crowdedGenesis LeavesCounted state ∧
      CapitalExact state.stakes := by
  obtain ⟨state, reached⟩ := reached_crowdedRun CountedWithdrawal fun _ => trivial
  exact ⟨state, reached, capital_exact reached⟩

/-- After a decrease in the bottom list of a candidate, the candidate leaves. -/
def staleExit : List (Action Nat (Nat → Nat)) :=
  bottomDecrease ++ [.extrinsic (.signed 1) (.scheduleLeaveCandidates 2)] ++
  List.replicate 10 (.nextBlock 0) ++
  [.extrinsic (.signed 6) (.executeLeaveCandidates 1 5)]

/-- A stale total of a bottom list takes more off `Total` than leaves. -/
theorem capital_not_exact :
    ∃ state, Reachable mockRuntime bottomGenesis state ∧ ¬CapitalExact state.stakes := by
  obtain ⟨state, reachable, observed⟩ := Reached.exists_of_played
    (show (played mockRuntime bottomGenesis staleExit).map
      (fun state => (state.stakes.total, state.stakes.candidateInfo.sum (fun _ info => info.bond),
        state.stakes.delegatorState.sum fun _ state =>
          Delegations.sumAmounts state.delegations.entries)) =
      some (3, 0, 4) by decide +kernel)
  simp only [Prod.mk.injEq] at observed
  obtain ⟨total, bonds, delegations⟩ := observed
  refine ⟨state, reachable, fun exact => ?_⟩
  rw [CapitalExact, total, bonds, delegations] at exact
  cases exact

end Popsicle
