import Popsicle.Soundness

/-!
# The escrow covers what is staked

Every effect that the account of the pallet does not sign changes what the records say
is staked by no more than the asset moves, so the escrow holds it but for what the asset
has burnt.  An exact asset burns nothing.
-/

namespace Popsicle

open Foundation Keyed

variable {AccountId Native : Type} [LinearOrder AccountId] {config : Config AccountId Native}
  {may : Withdrawal AccountId → Prop} {signs : AccountId → Prop}
  {before after : Stakes AccountId Native}

/-! ## What is staked -/

section Updates

variable {candidateInfo : StorageMap AccountId CandidateMetadata}
  {delegatorState : StorageMap AccountId (Delegator AccountId)} {candidate delegator : AccountId}
  {info info' : CandidateMetadata} {state state' : Delegator AccountId}

theorem staked_insert (stored : delegatorState.get delegator = some state) :
    stakedBy candidateInfo (delegatorState.insert delegator state') + state.total =
      stakedBy candidateInfo delegatorState + state'.total := by
  have change := staked_put candidateInfo delegatorState delegator (some state')
  rw [stored] at change
  exact change

theorem staked_insert_candidate (stored : candidateInfo.get candidate = some info) :
    stakedBy (candidateInfo.insert candidate info') delegatorState + info.bond =
      stakedBy candidateInfo delegatorState + info'.bond := by
  have change := staked_put_candidate candidateInfo delegatorState candidate (some info')
  rw [stored] at change
  exact change

theorem staked_join (fresh : candidateInfo.get candidate = none) :
    stakedBy (candidateInfo.insert candidate (CandidateMetadata.new 0)) delegatorState =
      stakedBy candidateInfo delegatorState := by
  have change := staked_put_candidate candidateInfo delegatorState candidate
    (some (CandidateMetadata.new 0))
  rw [fresh] at change
  exact change

theorem staked_remove_candidate :
    stakedBy (candidateInfo.remove candidate) delegatorState ≤
      stakedBy candidateInfo delegatorState := by
  have change := staked_put_candidate candidateInfo delegatorState candidate none
  simp only [StorageMap.put_none, Option.map_none, Option.getD_none] at change
  omega

theorem staked_enroll {amount : Nat}
    (enrolls : Enrolls (delegatorState.get delegator) delegator candidate amount state) :
    stakedBy candidateInfo (delegatorState.insert delegator state) =
      stakedBy candidateInfo delegatorState + amount := by
  have change := staked_put candidateInfo delegatorState delegator (some state)
  rw [Option.map_some, Option.getD_some, enrolls.total_eq, StorageMap.put_some] at change
  omega

end Updates

/-! ## The ledger and the records -/

omit [LinearOrder AccountId] in
/-- The records change by no more than what is put in and taken out. -/
theorem Covered.settle (covered : Covered config before) (paid received : Nat)
    (records : staked after + received ≤ staked before + paid)
    (ledger : before.btc.balance config.palletAccount + before.btc.burnt + paid ≤
      after.btc.balance config.palletAccount + after.btc.burnt + received) :
    Covered config after := by
  unfold Covered at covered ⊢
  omega

theorem Ledger.le_pay_escrow {btc : Ledger AccountId} {who : AccountId} {amount : Nat}
    (credits : config.asset.Credits) (outside : who ≠ config.palletAccount) :
    btc.balance config.palletAccount + btc.burnt + amount ≤
      (btc.pay config who config.palletAccount amount).balance config.palletAccount +
        (btc.pay config who config.palletAccount amount).burnt := by
  rw [pay_dest credits outside, burnt_pay_of_ne outside]
  omega

/-- After a kick what is staked is covered, and the new delegator can be recorded as if
the kick had not touched its own record. -/
theorem Kicks.covered (sound : Sound config before) (covered : Covered config before)
    {candidate delegator : AccountId} {kicked : Option (Bond AccountId)}
    (fresh : booked before.delegatorState delegator candidate = none)
    (kicks : Kicks config candidate before kicked after) :
    ∃ delegatorState,
      Covered config { after with delegatorState } ∧
      delegatorState.get delegator = before.delegatorState.get delegator ∧
      ∀ state, after.delegatorState.insert delegator state =
        delegatorState.insert delegator state := by
  cases kicked with
  | none =>
      cases kicks
      exact ⟨before.delegatorState, covered, rfl, fun _ => rfl⟩
  | some bond =>
      obtain ⟨state, stored, _, rfl⟩ := kicks
      by_cases equal : delegator = bond.owner
      · subst equal
        rw [booked_of_stored stored] at fresh
        refine ⟨before.delegatorState, ?_, rfl, fun state => ?_⟩
        · simp only [dropped, fresh, Ledger.refund]
          exact covered
        · exact StorageMap.put_put_self _ _ _ (some state)
      · exact ⟨_, covered.drop (sound.records bond.owner state stored) stored _,
          StorageMap.get_put_of_ne _ _ equal, fun _ => rfl⟩

/-! ## Every effect -/

section Effects

variable {candidate delegator : AccountId} {info info' : CandidateMetadata}
  {state : Delegator AccountId} {amount bonded more less : Nat}

theorem Covered.pull (covered : Covered config before) (credits : config.asset.Credits)
    (outside : delegator ≠ config.palletAccount)
    (records : staked after ≤ staked before + amount)
    (paid : after.btc = before.btc.pay config delegator config.palletAccount amount) :
    Covered config after := by
  refine covered.settle amount 0 records ?_
  rw [paid]
  exact Ledger.le_pay_escrow credits outside

theorem Covered.send (covered : Covered config before)
    (records : staked after + amount ≤ staked before)
    (sent : after.btc = before.btc.pay config config.palletAccount delegator amount) :
    Covered config after := by
  refine covered.settle 0 amount records ?_
  rw [sent]
  exact before.btc.le_pay_pallet config delegator amount

theorem Covered.delegate (covered : Covered config before) (sound : Sound config before)
    (credits : config.asset.Credits) {mid : Stakes AccountId Native}
    {kicked : Option (Bond AccountId)} (outside : delegator ≠ config.palletAccount)
    (stored : before.candidateInfo.get candidate = some info)
    (fresh : booked before.delegatorState delegator candidate = none)
    (enrolls : Enrolls (before.delegatorState.get delegator) delegator candidate amount state)
    (kicks : Kicks config candidate before kicked mid) (same : SameTerms info info')
    (records : after.candidateInfo = before.candidateInfo.insert candidate info' ∧
      after.delegatorState = mid.delegatorState.insert delegator state)
    (paid : after.btc = mid.btc.pay config delegator config.palletAccount amount) :
    Covered config after := by
  obtain ⟨delegatorState, coveredMid, isState, inserted⟩ := kicks.covered sound covered fresh
  rw [← isState] at enrolls
  have frame : mid.candidateInfo = before.candidateInfo := by rw [kicks.frame]
  refine coveredMid.pull credits outside (le_of_eq ?_) paid
  unfold staked
  rw [records.1, records.2, inserted, frame, staked_same_bond _ stored same.2.1]
  exact staked_enroll enrolls

theorem Covered.decrease (covered : Covered config before) (sound : Sound config before)
    (storedDelegator : before.delegatorState.get delegator = some state)
    (recorded : state.getBondAmount candidate = some bonded) (below : less < bonded)
    (stored : before.candidateInfo.get candidate = some info) (same : SameTerms info info')
    (records : after.candidateInfo = before.candidateInfo.insert candidate info' ∧
      after.delegatorState = before.delegatorState.insert delegator
        ((state.forget less).rebonded candidate (· - less) (state.total - less)))
    (sent : after.btc = before.btc.pay config config.palletAccount delegator less) :
    Covered config after := by
  refine covered.send ?_ sent
  have enough := (sound.records delegator state storedDelegator).le_total recorded
  have change : stakedBy before.candidateInfo (before.delegatorState.insert delegator
      ((state.forget less).rebonded candidate (· - less) (state.total - less))) +
        state.total = _ + (state.total - less) := staked_insert storedDelegator
  unfold staked
  rw [records.1, records.2, staked_same_bond _ stored same.2.1]
  omega

theorem Covered.increase (covered : Covered config before) (credits : config.asset.Credits)
    (outside : delegator ≠ config.palletAccount)
    (storedDelegator : before.delegatorState.get delegator = some state)
    (stored : before.candidateInfo.get candidate = some info) (same : SameTerms info info')
    (records : after.candidateInfo = before.candidateInfo.insert candidate info' ∧
      after.delegatorState = before.delegatorState.insert delegator
        (state.rebonded candidate (· + more) (state.total + more)))
    (paid : after.btc = before.btc.pay config delegator config.palletAccount more) :
    Covered config after := by
  refine covered.pull credits outside ?_ paid
  have change : stakedBy before.candidateInfo (before.delegatorState.insert delegator
      (state.rebonded candidate (· + more) (state.total + more))) + state.total =
        _ + (state.total + more) := staked_insert storedDelegator
  unfold staked
  rw [records.1, records.2, staked_same_bond _ stored same.2.1]
  omega

theorem Covered.rewrite (covered : Covered config before) (state' : Delegator AccountId)
    (storedDelegator : before.delegatorState.get delegator = some state)
    (same : state'.total = state.total)
    (records : after.candidateInfo = before.candidateInfo ∧
      after.delegatorState = before.delegatorState.insert delegator state')
    (unpaid : after.btc = before.btc) : Covered config after := by
  have change : stakedBy before.candidateInfo (before.delegatorState.insert delegator state') +
      state.total = _ + state'.total := staked_insert storedDelegator
  refine covered.settle 0 0 ?_ (by rw [unpaid])
  unfold staked
  rw [records.1, records.2]
  omega

end Effects

/-- Every effect keeps what is staked covered. -/
theorem Covered.effect (covered : Covered config before) (sound : Sound config before)
    (credits : config.asset.Credits) (effect : Effect config may signs before after)
    (outside : ∀ account, signs account → account ≠ config.palletAccount) :
    Covered config after := by
  cases effect with
  | native | clears => exact covered
  | moves balance kept => exact covered.trans (Nat.add_le_add_right (kept credits) _)
  | joins candidate native pool fresh =>
      exact covered.settle 0 0 (staked_join fresh).le le_rfl
  | amends candidate info status request pool stored =>
      have sameBond : stakedBy (before.candidateInfo.insert candidate { info with status, request })
          before.delegatorState = _ := staked_same_bond _ stored rfl
      exact covered.settle 0 0 sameBond.le le_rfl
  | bondsMore candidate info more pool stored funded signed =>
      refine covered.pull credits (outside candidate signed) ?_ rfl
      have change : stakedBy (before.candidateInfo.insert candidate { info with
          bond := info.bond + more, totalCounted := info.totalCounted + more })
          before.delegatorState + info.bond = _ := staked_insert_candidate stored
      unfold staked
      dsimp only at change ⊢
      omega
  | bondsLess candidate info request pool stored pending =>
      refine covered.send ?_ rfl
      have below := sound.requests candidate info stored request pending
      have change : stakedBy (before.candidateInfo.insert candidate { info with
          bond := info.bond - request.amount
          totalCounted := info.totalCounted - request.amount
          request := none }) before.delegatorState + info.bond = _ :=
        staked_insert_candidate stored
      unfold staked
      dsimp only at change ⊢
      omega
  | exits candidate info top bottom returned native allowed stored storedTop storedBottom
      returns =>
      refine (returns.covered sound.records covered).settle 0 0 ?_ le_rfl
      have frame : returned.candidateInfo = before.candidateInfo := by rw [returns.frame]
      unfold staked
      rw [frame]
      exact staked_remove_candidate
  | delegates delegator candidate amount state info info' top bottom top' bottom' kicked mid less
      pool stored _ _ _ fresh _ signed enrolls kicks _ same =>
      exact covered.delegate sound credits (outside delegator signed) stored fresh enrolls kicks
        same ⟨rfl, rfl⟩ rfl
  | revokes delegator candidate amount state request info info' top bottom top' bottom' pool
      storedDelegator _ _ stored _ _ _ same =>
      have rest : Covered config (dropped config candidate delegator state
          (decide (state.delegations.entries.length = 1)) before) :=
        covered.drop (sound.records delegator state storedDelegator) storedDelegator _
      exact rest.settle 0 0 (staked_same_bond _ stored same.2.1).le le_rfl
  | decreases delegator candidate bonded less state request info info' top bottom top' bottom'
      pool storedDelegator _ _ _ recorded below stored _ _ _ same =>
      exact covered.decrease sound storedDelegator recorded below stored same ⟨rfl, rfl⟩ rfl
  | increases delegator candidate bonded more state info info' top bottom top' bottom' pool
      storedDelegator _ _ signed stored _ _ _ same =>
      exact covered.increase credits (outside delegator signed) storedDelegator stored same
        ⟨rfl, rfl⟩ rfl
  | schedules delegator candidate bonded state request storedDelegator =>
      exact covered.rewrite { state with lessTotal := state.lessTotal + request.action.amount }
        storedDelegator rfl ⟨rfl, rfl⟩ rfl
  | cancels delegator candidate state request storedDelegator =>
      exact covered.rewrite (state.forget request.action.amount) storedDelegator rfl ⟨rfl, rfl⟩ rfl

theorem Effect.burnt (effect : Effect config may signs before after)
    (exact' : config.asset.Exact) : after.btc.burnt = before.btc.burnt := by
  cases effect with
  | native | moves | clears | joins | amends | schedules | cancels => rfl
  | bondsMore | bondsLess | decreases | increases => exact Ledger.burnt_pay exact'
  | exits _ _ _ _ _ _ _ _ _ _ returns => exact returns.burnt exact'
  | revokes _ _ _ state =>
      exact burnt_dropped exact' (decide (state.delegations.entries.length = 1))
  | delegates _ _ _ _ _ _ _ _ _ _ kicked _ _ _ _ _ _ _ _ _ _ _ kicks =>
      refine (Ledger.burnt_pay exact').trans ?_
      cases kicked with
      | none =>
          cases kicks
          rfl
      | some bond =>
          obtain ⟨_, _, _, rfl⟩ := kicks
          exact burnt_dropped exact' _

end Popsicle
