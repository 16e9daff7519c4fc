import Popsicle.Refund

/-!
# The escrow

The account of the pallet holds the BTC that candidates and delegators have
staked.  `staked` is what the records say it owes, `Solvent` that it holds as much.
-/

namespace Popsicle

open Foundation

variable {AccountId Native : Type} [LinearOrder AccountId] {config : Config AccountId Native}

/-! ## Payments -/

namespace Ledger

variable {btc : Ledger AccountId} {source dest account : AccountId} {amount : Nat}

theorem balance_pay (exact : config.asset.Exact) (different : source ≠ dest)
    (account : AccountId) :
    (btc.pay config source dest amount).balance account =
      if account = source then btc.balance account - amount
      else if account = dest then btc.balance account + amount
      else btc.balance account := by
  simp only [pay, record, exact.after_eq]
  exact if_neg different

theorem balance_pay_of_ne (credits : config.asset.Credits) (different : account ≠ source) :
    (btc.pay config source dest amount).balance account =
      if account = dest then btc.balance account + amount else btc.balance account :=
  credits.after_of_ne different

theorem pay_dest (credits : config.asset.Credits) (different : source ≠ dest) :
    (btc.pay config source dest amount).balance dest = btc.balance dest + amount := by
  rw [balance_pay_of_ne credits different.symm, if_pos rfl]

theorem le_pay_other (credits : config.asset.Credits) (different : account ≠ source) :
    btc.balance account ≤ (btc.pay config source dest amount).balance account := by
  rw [balance_pay_of_ne credits different]
  split <;> omega

/-- The account of the pallet loses the amount and what is burnt. -/
theorem le_pay_pallet (config : Config AccountId Native) (btc : Ledger AccountId)
    (dest : AccountId) (amount : Nat) :
    btc.balance config.palletAccount + btc.burnt ≤
      (btc.pay config config.palletAccount dest amount).balance config.palletAccount +
        (btc.pay config config.palletAccount dest amount).burnt + amount := by
  simp only [pay, record, if_true]
  omega

/-- What others pay does not burn anything of the pallet's account. -/
theorem burnt_pay_of_ne (different : source ≠ config.palletAccount) :
    (btc.pay config source dest amount).burnt = btc.burnt :=
  if_neg different

theorem burnt_pay (exact : config.asset.Exact) :
    (btc.pay config source dest amount).burnt = btc.burnt := by
  simp only [pay, record, exact.after_eq, Asset.moved]
  split
  next isPallet => split <;> simp
  next => rfl

end Ledger

/-! ## What is owed -/

/-- The BTC that the given records say is staked. -/
def stakedBy (candidateInfo : StorageMap AccountId CandidateMetadata)
    (delegatorState : StorageMap AccountId (Delegator AccountId)) : Nat :=
  candidateInfo.sum (fun _ info => info.bond) +
    delegatorState.sum (fun _ state => state.total)

/-- The BTC that the records say is staked. -/
def staked (stakes : Stakes AccountId Native) : Nat :=
  stakedBy stakes.candidateInfo stakes.delegatorState

/-- The account of the pallet holds all staked BTC. -/
def Solvent (config : Config AccountId Native) (stakes : Stakes AccountId Native) : Prop :=
  staked stakes ≤ stakes.btc.balance config.palletAccount

/-- The account of the pallet holds all staked BTC that the asset has not burnt. -/
def Covered (config : Config AccountId Native) (stakes : Stakes AccountId Native) : Prop :=
  staked stakes ≤ stakes.btc.balance config.palletAccount + stakes.btc.burnt

omit [LinearOrder AccountId] in
theorem Covered.solvent {stakes : Stakes AccountId Native} (covered : Covered config stakes)
    (unburnt : stakes.btc.burnt = 0) : Solvent config stakes := by
  unfold Covered at covered
  rwa [unburnt] at covered

theorem bond_le_staked {stakes : Stakes AccountId Native} {candidate : AccountId}
    {info : CandidateMetadata} (stored : stakes.candidateInfo.get candidate = some info) :
    info.bond ≤ staked stakes := by
  have weight := stakes.candidateInfo.weight_le_sum (fun _ info => info.bond) candidate
  rw [StorageMap.weight_of_get stored] at weight
  unfold staked stakedBy
  omega

theorem total_le_staked {stakes : Stakes AccountId Native} {delegator : AccountId}
    {state : Delegator AccountId} (stored : stakes.delegatorState.get delegator = some state) :
    state.total ≤ staked stakes := by
  have weight := stakes.delegatorState.weight_le_sum (fun _ state => state.total) delegator
  rw [StorageMap.weight_of_get stored] at weight
  unfold staked stakedBy
  omega

section Delegators

variable {stakes : Stakes AccountId Native} {candidate delegator : AccountId}
  {state : Delegator AccountId} {amount : Nat}

/-- Dropping a delegation burns nothing if the asset is exact. -/
theorem burnt_dropped (exact : config.asset.Exact) (leaving : Bool) :
    (dropped config candidate delegator state leaving stakes).btc.burnt = stakes.btc.burnt := by
  cases recorded : state.getBondAmount candidate with
  | none => simp [dropped, recorded, Ledger.refund]
  | some amount => simp [dropped, recorded, Ledger.refund, Ledger.burnt_pay exact]

theorem Solvent.covers (solvent : Solvent config stakes)
    (consistent : Delegator.Consistent delegator state)
    (stored : stakes.delegatorState.get delegator = some state)
    (recorded : state.getBondAmount candidate = some amount) :
    amount ≤ stakes.btc.balance config.palletAccount :=
  (consistent.le_total recorded).trans ((total_le_staked stored).trans solvent)

theorem staked_put (candidateInfo : StorageMap AccountId CandidateMetadata)
    (delegatorState : StorageMap AccountId (Delegator AccountId)) (delegator : AccountId)
    (entry : Option (Delegator AccountId)) :
    stakedBy candidateInfo (delegatorState.put delegator entry) +
        ((delegatorState.get delegator).map Delegator.total).getD 0 =
      stakedBy candidateInfo delegatorState + (entry.map Delegator.total).getD 0 := by
  have change := delegatorState.sum_put (fun _ state => state.total) delegator entry
  have after : (delegatorState.put delegator entry).weight (fun _ state => state.total)
      delegator = (entry.map Delegator.total).getD 0 := by
    rw [StorageMap.weight, StorageMap.get_put_self]
  have before : delegatorState.weight (fun _ state => state.total) delegator =
      ((delegatorState.get delegator).map Delegator.total).getD 0 := rfl
  rw [after, before] at change
  unfold stakedBy
  omega

theorem staked_put_candidate (candidateInfo : StorageMap AccountId CandidateMetadata)
    (delegatorState : StorageMap AccountId (Delegator AccountId)) (candidate : AccountId)
    (entry : Option CandidateMetadata) :
    stakedBy (candidateInfo.put candidate entry) delegatorState +
        ((candidateInfo.get candidate).map CandidateMetadata.bond).getD 0 =
      stakedBy candidateInfo delegatorState +
        (entry.map CandidateMetadata.bond).getD 0 := by
  have change := candidateInfo.sum_put (fun _ info => info.bond) candidate entry
  have after : (candidateInfo.put candidate entry).weight (fun _ info => info.bond)
      candidate = (entry.map CandidateMetadata.bond).getD 0 := by
    rw [StorageMap.weight, StorageMap.get_put_self]
  have before : candidateInfo.weight (fun _ info => info.bond) candidate =
      ((candidateInfo.get candidate).map CandidateMetadata.bond).getD 0 := rfl
  rw [after, before] at change
  unfold stakedBy
  omega

theorem staked_same_bond {candidateInfo : StorageMap AccountId CandidateMetadata}
    (delegatorState : StorageMap AccountId (Delegator AccountId)) {candidate : AccountId}
    {info info' : CandidateMetadata} (stored : candidateInfo.get candidate = some info)
    (same : info'.bond = info.bond) :
    stakedBy (candidateInfo.insert candidate info') delegatorState =
      stakedBy candidateInfo delegatorState := by
  have change := staked_put_candidate candidateInfo delegatorState candidate (some info')
  simp only [stored, StorageMap.put_some, Option.map_some, Option.getD_some] at change
  omega

/-- What is owed after a delegation has been dropped, in terms of the record. -/
theorem staked_dropped (stored : stakes.delegatorState.get delegator = some state)
    (leaving : Bool) :
    staked (dropped config candidate delegator state leaving stakes) + state.total =
      staked stakes +
        if leaving then 0 else state.total - (state.getBondAmount candidate).getD 0 := by
  have change := staked_put stakes.candidateInfo stakes.delegatorState delegator
    (if leaving then none
      else some (state.droppedRecord (stakes.requests candidate) candidate delegator))
  rw [stored] at change
  unfold staked
  cases leaving
  · simpa [dropped, Delegator.droppedRecord, Delegator.forget, Delegator.without] using change
  · simpa [dropped] using change

/-- Dropping a delegation pays back no more than it takes off the records. -/
theorem Covered.drop (covered : Covered config stakes)
    (consistent : Delegator.Consistent delegator state)
    (stored : stakes.delegatorState.get delegator = some state) (leaving : Bool) :
    Covered config (dropped config candidate delegator state leaving stakes) := by
  have change : staked (dropped config candidate delegator state leaving stakes) +
      state.total = _ := staked_dropped stored leaving
  unfold Covered at covered ⊢
  have paid : stakes.btc.balance config.palletAccount + stakes.btc.burnt ≤
      (dropped config candidate delegator state leaving stakes).btc.balance
          config.palletAccount +
        (dropped config candidate delegator state leaving stakes).btc.burnt +
        (state.getBondAmount candidate).getD 0 := by
    cases recorded : state.getBondAmount candidate with
    | none => simp [dropped, recorded, Ledger.refund]
    | some amount =>
        simpa [dropped, recorded, Ledger.refund] using
          stakes.btc.le_pay_pallet config delegator amount
  have held : (state.getBondAmount candidate).getD 0 ≤ state.total := by
    cases recorded : state.getBondAmount candidate with
    | none => exact Nat.zero_le _
    | some amount => exact consistent.le_total recorded
  split at change <;> omega

/-! ## A funded escrow -/

/-- The asset is a plain ledger, and the account of the pallet holds what is staked. -/
structure Funded (config : Config AccountId Native) (stakes : Stakes AccountId Native) :
    Prop where
  plain : config.asset.IsPlain
  covered : Covered config stakes
  unburnt : stakes.btc.burnt = 0

theorem Funded.solvent (funded : Funded config stakes) : Solvent config stakes :=
  funded.covered.solvent funded.unburnt

theorem Funded.refundable_of_le (funded : Funded config stakes)
    (held : amount ≤ stakes.btc.balance config.palletAccount) (dest : AccountId) :
    Refundable config stakes.btc.balance dest amount :=
  funded.plain.accepts _ _ _ _ held

theorem Funded.refundable (funded : Funded config stakes)
    (consistent : Delegator.Consistent delegator state)
    (stored : stakes.delegatorState.get delegator = some state)
    (recorded : state.getBondAmount candidate = some amount) :
    Refundable config stakes.btc.balance delegator amount :=
  funded.refundable_of_le (funded.solvent.covers consistent stored recorded) delegator

theorem Funded.drop (funded : Funded config stakes)
    (consistent : Delegator.Consistent delegator state)
    (stored : stakes.delegatorState.get delegator = some state) (leaving : Bool) :
    Funded config (dropped config candidate delegator state leaving stakes) where
  plain := funded.plain
  covered := funded.covered.drop consistent stored leaving
  unburnt := (burnt_dropped funded.plain.exact leaving).trans funded.unburnt

end Delegators

end Popsicle
