import Popsicle.Preservation
import Popsicle.Solvency

/-!
# The counted capital

`Total` is adjusted by hand wherever stake moves.  It stays the capital that is
staked as long as a candidate leaves cleanly and the stored total of its bottom
list does not lag behind the list.
-/

namespace Popsicle

open Foundation Exec Keyed

variable {AccountId Native : Type} [LinearOrder AccountId] {config : Config AccountId Native}
  {may : Withdrawal AccountId → Prop} {signs : AccountId → Prop}
  {before after : Stakes AccountId Native}

/-- `Total` is what the records say is staked. -/
def Counted (stakes : Stakes AccountId Native) : Prop :=
  stakes.total = staked stakes

/-- What `execute_leave_candidates` takes off `Total` is what leaves: either the
stored total of the bottom list is that of its delegations, or nothing else is
staked, so that the subtraction saturates at the right number. -/
def CountedExit (stakes : Stakes AccountId Native) (candidate : AccountId) : Prop :=
  ∀ info top bottom, stakes.candidateInfo.get candidate = some info →
    stakes.topDelegations.get candidate = some top →
    stakes.bottomDelegations.get candidate = some bottom →
    bottom.total = Delegations.sumAmounts bottom.delegations ∨
      staked stakes =
        info.bond + top.total + Delegations.sumAmounts bottom.delegations

section Leaving

variable {candidate : AccountId} {info : CandidateMetadata}
  {top bottom : Delegations AccountId} {returned : Stakes AccountId Native}

/-- A clean exit takes the bond and the delegations in the lists off the records. -/
theorem Agrees.staked_exit (agrees : Agrees config before)
    (clean : CleanExit before.delegatorState candidate)
    (stored : before.candidateInfo.get candidate = some info)
    (storedTop : before.topDelegations.get candidate = some top)
    (storedBottom : before.bottomDelegations.get candidate = some bottom)
    (returns : Returns config candidate (table top bottom) before returned) :
    stakedBy (before.candidateInfo.remove candidate) returned.delegatorState +
        (info.bond + top.total + Delegations.sumAmounts bottom.delegations) =
      staked before := by
  obtain ⟨listed, _⟩ := agrees.listed stored storedTop storedBottom
  obtain ⟨_, sum, _⟩ := returns.booked (agrees.returnable clean stored storedTop storedBottom)
  have change := staked_put_candidate before.candidateInfo returned.delegatorState candidate none
  have frame : returned.candidateInfo = before.candidateInfo := by rw [returns.frame]
  have both : Delegations.sumAmounts (table top bottom) =
      top.total + Delegations.sumAmounts bottom.delegations := by
    rw [listed.topTotal]
    exact Delegations.sumAmounts_append _ _
  rw [both] at sum
  unfold staked at sum ⊢
  rw [frame] at sum
  simp only [stored, StorageMap.put_none, Option.map_none, Option.map_some,
    Option.getD_none, Option.getD_some] at change
  omega

/-- After a clean exit `Total` is right if and only if the exit is counted. -/
theorem Agrees.counted_exit_iff (agrees : Agrees config before) (counted : Counted before)
    (clean : CleanExit before.delegatorState candidate)
    (stored : before.candidateInfo.get candidate = some info)
    (storedTop : before.topDelegations.get candidate = some top)
    (storedBottom : before.bottomDelegations.get candidate = some bottom)
    (returns : Returns config candidate (table top bottom) before returned) :
    before.total - (info.bond + top.total + bottom.total) =
        stakedBy (before.candidateInfo.remove candidate) returned.delegatorState ↔
      CountedExit before candidate := by
  have left := agrees.staked_exit clean stored storedTop storedBottom returns
  have bound := (agrees.listed stored storedTop storedBottom).1.bottomTotal
  have isTotal : before.total = staked before := counted
  constructor
  · intro right info₁ top₁ bottom₁ stored₁ storedTop₁ storedBottom₁
    rw [stored] at stored₁
    rw [storedTop] at storedTop₁
    rw [storedBottom] at storedBottom₁
    cases stored₁
    cases storedTop₁
    cases storedBottom₁
    omega
  · intro exit
    have truthful := exit info top bottom stored storedTop storedBottom
    omega

end Leaving

section Moves

variable {candidate delegator : AccountId} {info info' : CandidateMetadata}
  {top bottom top' bottom' : Delegations AccountId} {state : Delegator AccountId}
  {amount : Nat}

/-- A kick takes the kicked delegation off the records and leaves the record of
the new delegator alone. -/
theorem Agrees.staked_kick (agrees : Agrees config before) (counted : Counted before)
    {kicked : Option (Bond AccountId)} {mid : Stakes AccountId Native}
    (stored : before.candidateInfo.get candidate = some info)
    (storedTop : before.topDelegations.get candidate = some top)
    (storedBottom : before.bottomDelegations.get candidate = some bottom)
    (fresh : booked before.delegatorState delegator candidate = none)
    (kicks : Kicks config candidate before kicked mid)
    (member : ∀ bond, kicked = some bond → bond ∈ table top bottom) :
    stakedBy before.candidateInfo mid.delegatorState + (kicked.map Bond.amount).getD 0 =
        before.total ∧
      mid.delegatorState.get delegator = before.delegatorState.get delegator := by
  have isTotal : before.total = staked before := counted
  cases kicked with
  | none =>
      cases kicks
      exact ⟨isTotal.symm, rfl⟩
  | some bond =>
      obtain ⟨old, found, _, rfl⟩ := kicks
      obtain ⟨recorded, different⟩ :=
        agrees.kicked stored storedTop storedBottom fresh (member bond rfl) found
      have kept := (agrees.records.kept bond.owner old found).toConsistent
      have held := kept.le_total recorded
      have change : staked (dropped config candidate bond.owner old
          (decide (old.delegations.entries.length = 1)) before) + old.total = _ :=
        staked_dropped found _
      have owed := total_le_staked found
      refine ⟨?_, StorageMap.get_put_of_ne _ _ different⟩
      rw [recorded, Option.getD_some] at change
      rw [Option.map_some, Option.getD_some, isTotal]
      change staked (dropped config candidate bond.owner old _ before) + bond.amount = _
      split at change
      next leaves =>
        have single := kept.total_of_single (decide_eq_true_iff.mp leaves) recorded
        omega
      next => omega

theorem Counted.rebond (counted : Counted before)
    (stored : before.candidateInfo.get candidate = some info)
    (records : after.candidateInfo = before.candidateInfo.insert candidate info' ∧
      after.delegatorState = before.delegatorState)
    (moves : info.bond ≤ before.total → after.total + info.bond = before.total + info'.bond) :
    Counted after := by
  have change : stakedBy (before.candidateInfo.insert candidate info') before.delegatorState +
      info.bond = _ := staked_insert_candidate stored
  have bonded := before.candidateInfo.weight_le_sum (fun _ info => info.bond) candidate
  rw [StorageMap.weight_of_get stored] at bonded
  unfold Counted staked at *
  rw [records.1, records.2]
  have within : info.bond ≤ before.total := by
    rw [counted, stakedBy]
    omega
  have moved := moves within
  omega

theorem Counted.rewrite (counted : Counted before) (state' : Delegator AccountId)
    (storedDelegator : before.delegatorState.get delegator = some state)
    (isState : after.delegatorState = before.delegatorState.insert delegator state')
    (bonds : ∀ delegatorState,
      stakedBy after.candidateInfo delegatorState = stakedBy before.candidateInfo delegatorState)
    (moves : state.total ≤ before.total → after.total + state.total = before.total + state'.total) :
    Counted after := by
  have change : stakedBy before.candidateInfo (before.delegatorState.insert delegator state') +
      state.total = _ := staked_insert storedDelegator
  have owed := total_le_staked storedDelegator
  rw [← counted] at owed
  have moved := moves owed
  unfold Counted staked at *
  rw [bonds, isState]
  omega

/-- `Total` grows by a new delegation, less the one that is kicked for it. -/
theorem Agrees.counted_delegate (agrees : Agrees config before) (counted : Counted before)
    {kicked : Option (Bond AccountId)} {mid : Stakes AccountId Native} {less : Option Nat}
    (stored : before.candidateInfo.get candidate = some info)
    (storedTop : before.topDelegations.get candidate = some top)
    (storedBottom : before.bottomDelegations.get candidate = some bottom)
    (fresh : booked before.delegatorState delegator candidate = none)
    (enrolls : Enrolls (before.delegatorState.get delegator) delegator candidate amount state)
    (kicks : Kicks config candidate before kicked mid)
    (adds : Adds config info top bottom { owner := delegator, amount } kicked info' top' bottom')
    (same : SameTerms info info')
    (isLess : Listed config info top bottom → less = kicked.map Bond.amount) :
    before.total + (amount - less.getD 0) =
      stakedBy (before.candidateInfo.insert candidate info')
        (mid.delegatorState.insert delegator state) := by
  obtain ⟨listed, amounts⟩ := agrees.listed stored storedTop storedBottom
  have missing : lookup Bond.owner (table top bottom) delegator = none := by
    rw [← Option.map_eq_none_iff, amounts, fresh]
  obtain ⟨_, exchanged, _, atMost⟩ := adds listed missing
  obtain ⟨sum, isState⟩ := agrees.staked_kick counted stored storedTop storedBottom fresh
    kicks fun bond isKicked => exchanged.mem_before (by simp [isKicked])
  rw [← isState] at enrolls
  have change : stakedBy before.candidateInfo (mid.delegatorState.insert delegator state) = _ :=
    staked_enroll enrolls
  have covered : (kicked.map Bond.amount).getD 0 ≤ amount := by
    cases kicked with
    | none => exact Nat.zero_le _
    | some bond => exact atMost bond rfl
  rw [staked_same_bond _ stored same.2.1, isLess listed]
  omega

theorem Counted.drop (counted : Counted before) (sound : Sound config before)
    (storedDelegator : before.delegatorState.get delegator = some state)
    (recorded : state.getBondAmount candidate = some amount) :
    before.total - amount = staked (dropped config candidate delegator state
      (decide (state.delegations.entries.length = 1)) before) := by
  have consistent := sound.records delegator state storedDelegator
  have held := consistent.le_total recorded
  have owed := total_le_staked storedDelegator
  have change : staked (dropped config candidate delegator state
      (decide (state.delegations.entries.length = 1)) before) + state.total = _ :=
    staked_dropped storedDelegator _
  rw [recorded, Option.getD_some] at change
  rw [Counted] at counted
  split at change
  next leaves =>
    have single := consistent.total_of_single (decide_eq_true_iff.mp leaves) recorded
    omega
  next => omega

end Moves

/-- Every effect keeps `Total` right, if candidates only leave by counted and clean
exits. -/
theorem Counted.effect (counted : Counted before) (agrees : Agrees config before)
    (sound : Sound config before) (effect : Effect config may signs before after)
    (clean : ∀ candidate, may (.exit candidate) → CleanExit before.delegatorState candidate)
    (exit : ∀ candidate, may (.exit candidate) → CountedExit before candidate) : Counted after := by
  cases effect with
  | native | clears | moves => exact counted
  | joins candidate native pool fresh => exact counted.trans (staked_join fresh).symm
  | amends candidate info status request pool stored =>
      exact counted.rebond stored ⟨rfl, rfl⟩ fun _ => rfl
  | bondsMore candidate info more pool stored =>
      refine counted.rebond stored ⟨rfl, rfl⟩ fun _ => ?_
      dsimp only
      omega
  | bondsLess candidate info request pool stored pending =>
      have below := sound.requests candidate info stored request pending
      refine counted.rebond stored ⟨rfl, rfl⟩ fun within => ?_
      dsimp only
      omega
  | exits candidate info top bottom returned native allowed stored storedTop storedBottom
      returns =>
      exact (agrees.counted_exit_iff counted (clean candidate allowed) stored storedTop
        storedBottom returns).mpr (exit candidate allowed)
  | delegates delegator candidate amount state info info' top bottom top' bottom' kicked mid less
      pool stored storedTop storedBottom _ fresh _ _ enrolls kicks adds same isLess =>
      exact agrees.counted_delegate counted stored storedTop storedBottom fresh enrolls kicks adds
        same isLess
  | revokes delegator candidate amount state request info info' top bottom top' bottom' pool
      storedDelegator found action stored storedTop storedBottom removes same =>
      obtain ⟨bonded, isBooked, fits⟩ := agrees.records.fits candidate delegator request found
      rw [action] at fits
      have isAmount : amount = bonded := fits
      rw [booked_of_stored storedDelegator, ← isAmount] at isBooked
      exact (counted.drop sound storedDelegator isBooked).trans
        (staked_same_bond _ stored same.2.1).symm
  | decreases delegator candidate bonded less state request info info' top bottom top' bottom'
      pool storedDelegator _ _ _ recorded below stored _ _ _ same =>
      have enough := (sound.records delegator state storedDelegator).le_total recorded
      refine counted.rewrite _ storedDelegator rfl (fun _ => staked_same_bond _ stored same.2.1)
        fun within => ?_
      change before.total - less + state.total = before.total + (state.total - less)
      omega
  | increases delegator candidate bonded more state info info' top bottom top' bottom' pool
      storedDelegator _ _ _ stored _ _ _ same =>
      refine counted.rewrite _ storedDelegator rfl (fun _ => staked_same_bond _ stored same.2.1)
        fun _ => ?_
      change before.total + more + state.total = before.total + (state.total + more)
      omega
  | schedules delegator candidate bonded state request storedDelegator =>
      exact counted.rewrite _ storedDelegator rfl (fun _ => rfl) fun _ => rfl
  | cancels delegator candidate state request storedDelegator =>
      exact counted.rewrite _ storedDelegator rfl (fun _ => rfl) fun _ => rfl

end Popsicle
