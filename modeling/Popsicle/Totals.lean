import Popsicle.Consistency

/-!
# The stored totals of the lists

The total of a top list is always the sum of its delegations.  That of a bottom
list is not refreshed when one of its delegations decreases, so it is the sum only
while no delegation decreases in the bottom.
-/

namespace Popsicle

open Foundation Exec Keyed

variable {AccountId Native : Type} [LinearOrder AccountId] {config : Config AccountId Native}
  {spec : ChainSpec AccountId Native} {may : Withdrawal AccountId → Prop}
  {signs : AccountId → Prop} {before after : Stakes AccountId Native}

/-- The total of every bottom list is the sum of its delegations. -/
def Level (bottomDelegations : StorageMap AccountId (Delegations AccountId)) : Prop :=
  ∀ candidate bottom, bottomDelegations.get candidate = some bottom →
    bottom.total = Delegations.sumAmounts bottom.delegations

/-- A scheduled decrease is of nothing, or it is not of a bottom delegation. -/
def LevelDecrease (stakes : Stakes AccountId Native) (delegator candidate : AccountId) : Prop :=
  ∀ bottom request less, stakes.bottomDelegations.get candidate = some bottom →
    findRequest (stakes.requests candidate) delegator = some request →
    request.action = .decrease less →
      less = 0 ∨ lookup Bond.owner bottom.delegations delegator = none

omit [LinearOrder AccountId] in
theorem Drifts.level {bottom bottom' : Delegations AccountId} (drifts : Drifts bottom bottom' 0)
    (level : bottom.total = Delegations.sumAmounts bottom.delegations) :
    bottom'.total = Delegations.sumAmounts bottom'.delegations := by
  unfold Drifts at drifts
  omega

theorem lapse_of_le {bottom : Delegations AccountId} {delegator : AccountId} {old new : Nat}
    (atMost : old ≤ new) : lapse bottom delegator old new = 0 := by
  unfold lapse
  split <;> omega

theorem Level.insert {bottomDelegations : StorageMap AccountId (Delegations AccountId)}
    {candidate : AccountId} {bottom' : Delegations AccountId} (level : Level bottomDelegations)
    (exact : bottom'.total = Delegations.sumAmounts bottom'.delegations) :
    Level (bottomDelegations.insert candidate bottom') :=
  StorageMap.forall_insert level exact

/-- Every effect keeps the totals right, if no bottom delegation decreases. -/
theorem Level.effect (level : Level before.bottomDelegations) (agrees : Agrees config before)
    (effect : Effect config may signs before after)
    (decrease : ∀ delegator candidate, may (.decrease delegator candidate) →
      LevelDecrease before delegator candidate) : Level after.bottomDelegations := by
  cases effect with
  | native | moves | clears | amends | bondsMore | bondsLess | schedules | cancels => exact level
  | joins => exact level.insert rfl
  | exits candidate => exact StorageMap.forall_remove level candidate
  | delegates delegator candidate amount state info info' top bottom top' bottom' kicked mid less
      pool stored storedTop storedBottom _ fresh _ _ _ _ adds =>
      obtain ⟨listed, amounts⟩ := agrees.listed stored storedTop storedBottom
      have missing : lookup Bond.owner (table top bottom) delegator = none := by
        rw [← Option.map_eq_none_iff, amounts, fresh]
      obtain ⟨_, _, drifts, _⟩ := adds listed missing
      exact level.insert (drifts.level (level candidate bottom storedBottom))
  | revokes delegator candidate amount state request info info' top bottom top' bottom' pool
      _ _ _ stored storedTop storedBottom removes =>
      obtain ⟨listed, _⟩ := agrees.listed stored storedTop storedBottom
      obtain ⟨_, _, _, _, drifts⟩ := removes listed
      exact level.insert (drifts.level (level candidate bottom storedBottom))
  | decreases delegator candidate bonded less state request info info' top bottom top' bottom'
      pool storedDelegator allowed found action recorded _ stored storedTop storedBottom changes =>
      obtain ⟨listed, _⟩ := agrees.listed stored storedTop storedBottom
      have isBooked := (booked_of_stored storedDelegator candidate).trans recorded
      obtain ⟨bond, _, _, _, drifts⟩ :=
        changes (agrees.recorded stored storedTop storedBottom isBooked) listed
      have noLapse : lapse bottom delegator bond.amount (bond.amount - less) = 0 := by
        rcases decrease delegator candidate allowed bottom request less storedBottom found action
          with rfl | notBottom
        · exact lapse_of_le (le_refl _)
        · rw [lapse, notBottom]
          rfl
      rw [noLapse] at drifts
      exact level.insert (drifts.level (level candidate bottom storedBottom))
  | increases delegator candidate bonded more state info info' top bottom top' bottom' pool
      storedDelegator _ recorded _ stored storedTop storedBottom changes =>
      obtain ⟨listed, _⟩ := agrees.listed stored storedTop storedBottom
      have isBooked := (booked_of_stored storedDelegator candidate).trans recorded
      obtain ⟨bond, _, _, _, drifts⟩ :=
        changes (agrees.recorded stored storedTop storedBottom isBooked) listed
      rw [lapse_of_le (Nat.le_add_right bond.amount more)] at drifts
      exact level.insert (drifts.level (level candidate bottom storedBottom))

/-- A due exit is clean, and a due decrease is not of a bottom delegation. -/
def LevelWithdrawal (stakes : Stakes AccountId Native) : Withdrawal AccountId → Prop
  | .exit candidate => CleanExit stakes.delegatorState candidate
  | .decrease delegator candidate => LevelDecrease stakes delegator candidate
  | .schedules => True

/-- Candidates leave cleanly and no delegation decreases in a bottom list. -/
def StaysLevel (state : State AccountId Native) (action : Action AccountId Native) : Prop :=
  Allows LevelWithdrawal state action

/-- The stored totals are the sums of the lists. -/
def TotalsExact (stakes : Stakes AccountId Native) : Prop :=
  (∀ candidate top, stakes.topDelegations.get candidate = some top →
    top.total = Delegations.sumAmounts top.delegations) ∧
  ∀ candidate bottom, stakes.bottomDelegations.get candidate = some bottom →
    bottom.total = Delegations.sumAmounts bottom.delegations

/-- A stored top list belongs to a candidate, whose lists are well kept. -/
theorem Agrees.topTotal {stakes : Stakes AccountId Native} {candidate : AccountId}
    {top : Delegations AccountId} (agrees : Agrees config stakes) (sound : Sound config stakes)
    (storedTop : stakes.topDelegations.get candidate = some top) :
    top.total = Delegations.sumAmounts top.delegations := by
  have isCandidate := sound.top candidate
  rw [storedTop, Option.isSome_some] at isCandidate
  obtain ⟨info, stored⟩ := Option.isSome_iff_exists.mp isCandidate.symm
  obtain ⟨_, bottom, _, storedBottom⟩ := sound.exists_lists stored
  exact (agrees.listed stored storedTop storedBottom).1.topTotal

/-- The stored totals are the sums of their lists in every state reached without a
decrease in a bottom list. -/
theorem totals_exact {state : State AccountId Native}
    (reached : Reached config spec StaysLevel state) : TotalsExact state.stakes := by
  have keeps : Keeps config LevelWithdrawal (fun _ => True) fun stakes : Stakes AccountId Native =>
      Agrees config stakes ∧ Level stakes.bottomDelegations := by
    rintro before after sound ⟨agrees, level⟩ settles
    exact ⟨agrees.effect sound settles.1 fun _ => id, level.effect agrees settles.1 fun _ _ => id⟩
  obtain ⟨sound, agrees, level⟩ := reached.stakes (fun _ _ => id) keeps
    ⟨spec.agrees_initial, by simp [Level, ChainSpec.initial]⟩ (fun _ _ => trivial)
    fun _ _ => trivial
  exact ⟨fun _ _ => agrees.topTotal sound, level⟩

theorem totals_exact_crowded :
    ∃ state, Reached mockRuntime crowdedGenesis StaysLevel state ∧
      TotalsExact state.stakes := by
  obtain ⟨state, reached⟩ := reached_crowdedRun LevelWithdrawal fun _ => trivial
  exact ⟨state, reached, totals_exact reached⟩

/-- The lowest of five delegators decreases its delegation. -/
def bottomDecrease : List (Action Nat (Nat → Nat)) :=
  [.nextBlock 0, .extrinsic (.signed 6) (.scheduleDelegatorBondLess 1 1)] ++
  List.replicate 9 (.nextBlock 0) ++
  [.extrinsic (.signed 6) (.executeDelegationRequest 6 1)]

/-- A genesis in which one of five delegations to a candidate is in the bottom. -/
def bottomGenesis : ChainSpec Nat (Nat → Nat) :=
  mockGenesis [1, 9] [(2, 1, 10), (3, 1, 10), (4, 1, 10), (5, 1, 10), (6, 1, 5), (7, 9, 4)]

/-- A decrease in a bottom list leaves its total as it was. -/
theorem totals_not_exact :
    ∃ state, Reachable mockRuntime bottomGenesis state ∧ ¬TotalsExact state.stakes := by
  obtain ⟨state, reachable, observed⟩ := Reached.exists_of_played
    (show (played mockRuntime bottomGenesis bottomDecrease).map
      (fun state => (state.stakes.bottomDelegations.get 1).map fun bottom =>
        (bottom.total, Delegations.sumAmounts bottom.delegations)) =
      some (some (5, 4)) by decide +kernel)
  obtain ⟨bottom, storedBottom, sums⟩ := Option.map_eq_some_iff.mp observed
  rw [Prod.mk.injEq] at sums
  refine ⟨state, reachable, fun exact => ?_⟩
  have equal := exact.2 1 bottom storedBottom
  omega

end Popsicle
