import Popsicle.Preservation

/-!
# The custody of staked BTC

What the pallet has pulled from an account and not sent back is what the records
say the account has staked.  Every effect keeps it so but an exit, which returns
the delegations and not the bond of the candidate.
-/

namespace Popsicle

open Foundation Exec Keyed

variable {AccountId Native : Type} [LinearOrder AccountId] {config : Config AccountId Native}
  {may : Withdrawal AccountId → Prop} {signs : AccountId → Prop}
  {before after : Stakes AccountId Native}

/-! ## What has moved -/

/-- The amounts that have moved from one account to another, added up. -/
def Ledger.movedBetween (btc : Ledger AccountId) (source dest : AccountId) : Nat :=
  ((btc.transfers.filter fun transfer =>
    transfer.source = source ∧ transfer.dest = dest).map Transfer.amount).sum

/-- The BTC that the pallet has pulled from an account. -/
def pulled (config : Config AccountId Native) (btc : Ledger AccountId)
    (account : AccountId) : Nat :=
  btc.movedBetween account config.palletAccount

/-- The BTC that the pallet has sent to an account. -/
def sent (config : Config AccountId Native) (btc : Ledger AccountId)
    (account : AccountId) : Nat :=
  btc.movedBetween config.palletAccount account

/-- What the records say an account has staked. -/
def stakeOf (candidateInfo : StorageMap AccountId CandidateMetadata)
    (delegatorState : StorageMap AccountId (Delegator AccountId)) (account : AccountId) : Nat :=
  ((candidateInfo.get account).map CandidateMetadata.bond).getD 0 +
    ((delegatorState.get account).map Delegator.total).getD 0

/-- The given records say what the pallet holds for every other account. -/
def Escrowed (config : Config AccountId Native)
    (candidateInfo : StorageMap AccountId CandidateMetadata)
    (delegatorState : StorageMap AccountId (Delegator AccountId))
    (btc : Ledger AccountId) : Prop :=
  ∀ account, account ≠ config.palletAccount →
    sent config btc account + stakeOf candidateInfo delegatorState account =
      pulled config btc account

/-- The records say what the pallet holds for every other account. -/
def Custody (config : Config AccountId Native) (stakes : Stakes AccountId Native) : Prop :=
  Escrowed config stakes.candidateInfo stakes.delegatorState stakes.btc

/-- An account has paid one amount to the pallet and received another from it, and
no other account has. -/
def Exchanges (config : Config AccountId Native) (btc : Ledger AccountId) (who : AccountId)
    (paid received : Nat) (btc' : Ledger AccountId) : Prop :=
  ∀ account, account ≠ config.palletAccount →
    pulled config btc' account = pulled config btc account + (if account = who then paid else 0) ∧
      sent config btc' account =
        sent config btc account + if account = who then received else 0

section Payments

variable (config : Config AccountId Native) (btc : Ledger AccountId) (who : AccountId)
  (amount : Nat)

theorem Ledger.movedBetween_pay (btc : Ledger AccountId) (source dest : AccountId)
    (amount : Nat) (source' dest' : AccountId) :
    (btc.pay config source dest amount).movedBetween source' dest' =
      btc.movedBetween source' dest' +
        if source = source' ∧ dest = dest' then amount else 0 := by
  simp only [movedBetween, transfers_pay, List.filter_append, List.map_append, List.sum_append]
  split
  next same => simp [same]
  next different => simp [different]

theorem exchanges_nothing : Exchanges config btc who 0 0 btc := by
  intro account _
  simp

theorem exchanges_pull :
    Exchanges config btc who amount 0 (btc.pay config who config.palletAccount amount) := by
  intro account outside
  simp [pulled, sent, Ledger.movedBetween_pay, eq_comm, outside]

theorem exchanges_send :
    Exchanges config btc who 0 amount (btc.pay config config.palletAccount who amount) := by
  intro account outside
  simp [pulled, sent, Ledger.movedBetween_pay, eq_comm, outside]

theorem exchanges_refund (amount : Option Nat) :
    Exchanges config btc who 0 (amount.getD 0) (btc.refund config who amount) := by
  cases amount with
  | none => exact exchanges_nothing config btc who
  | some amount => exact exchanges_send config btc who amount

end Payments

namespace Escrowed

variable {candidateInfo : StorageMap AccountId CandidateMetadata}
  {delegatorState : StorageMap AccountId (Delegator AccountId)} {btc btc' : Ledger AccountId}
  {candidate delegator : AccountId} {paid received : Nat}

theorem put_candidate (escrowed : Escrowed config candidateInfo delegatorState btc)
    (exchanges : Exchanges config btc candidate paid received btc')
    (entry : Option CandidateMetadata)
    (balanced : received + (entry.map CandidateMetadata.bond).getD 0 =
      paid + ((candidateInfo.get candidate).map CandidateMetadata.bond).getD 0) :
    Escrowed config (candidateInfo.put candidate entry) delegatorState btc' := by
  intro account outside
  have old := escrowed account outside
  obtain ⟨isPulled, isSent⟩ := exchanges account outside
  unfold stakeOf at old ⊢
  rw [isPulled, isSent]
  by_cases equal : account = candidate
  · subst equal
    rw [StorageMap.get_put_self, if_pos rfl, if_pos rfl]
    omega
  · rw [StorageMap.get_put_of_ne _ _ equal, if_neg equal, if_neg equal]
    exact old

theorem put_delegator (escrowed : Escrowed config candidateInfo delegatorState btc)
    (exchanges : Exchanges config btc delegator paid received btc')
    (entry : Option (Delegator AccountId))
    (balanced : received + (entry.map Delegator.total).getD 0 =
      paid + ((delegatorState.get delegator).map Delegator.total).getD 0) :
    Escrowed config candidateInfo (delegatorState.put delegator entry) btc' := by
  intro account outside
  have old := escrowed account outside
  obtain ⟨isPulled, isSent⟩ := exchanges account outside
  unfold stakeOf at old ⊢
  rw [isPulled, isSent]
  by_cases equal : account = delegator
  · subst equal
    rw [StorageMap.get_put_self, if_pos rfl, if_pos rfl]
    omega
  · rw [StorageMap.get_put_of_ne _ _ equal, if_neg equal, if_neg equal]
    exact old

theorem same_bond (escrowed : Escrowed config candidateInfo delegatorState btc)
    {info info' : CandidateMetadata} (stored : candidateInfo.get candidate = some info)
    (same : info'.bond = info.bond) :
    Escrowed config (candidateInfo.insert candidate info') delegatorState btc := by
  refine escrowed.put_candidate (exchanges_nothing config btc candidate) (some info') ?_
  simp [stored, same]

theorem replace (escrowed : Escrowed config candidateInfo delegatorState btc)
    {state state' : Delegator AccountId} (stored : delegatorState.get delegator = some state)
    (exchanges : Exchanges config btc delegator paid received btc')
    (balanced : received + state'.total = paid + state.total) :
    Escrowed config candidateInfo (delegatorState.insert delegator state') btc' := by
  refine escrowed.put_delegator exchanges (some state') ?_
  simpa [stored] using balanced

end Escrowed

section Records

variable {stakes : Stakes AccountId Native} {candidate delegator : AccountId}
  {state : Delegator AccountId} {bonds : List (Bond AccountId)}

/-- Dropping a delegation pays back what it takes off the records. -/
theorem Custody.drop (custody : Custody config stakes)
    (consistent : Delegator.Consistent delegator state)
    (stored : stakes.delegatorState.get delegator = some state) {leaving : Bool}
    (all : leaving = true → state.total = (state.getBondAmount candidate).getD 0) :
    Custody config (dropped config candidate delegator state leaving stakes) := by
  refine Escrowed.put_delegator custody
    (exchanges_refund config stakes.btc delegator (state.getBondAmount candidate)) _ ?_
  have held : (state.getBondAmount candidate).getD 0 ≤ state.total := by
    cases recorded : state.getBondAmount candidate with
    | none => exact Nat.zero_le _
    | some amount => exact consistent.le_total recorded
  rw [stored, Option.map_some, Option.getD_some, Nat.zero_add]
  cases leaving with
  | true => simpa using (all rfl).symm
  | false =>
      simp only [Bool.false_eq_true, if_false, Option.map_some, Option.getD_some,
        Delegator.droppedRecord, Delegator.forget, Delegator.total_without]
      omega

theorem Returns.custody (returns : Returns config candidate bonds before after)
    (consistent : ∀ account state, before.delegatorState.get account = some state →
      Delegator.Consistent account state)
    (custody : Custody config before) : Custody config after := by
  induction returns with
  | done => exact custody
  | skip _ _ _ ih => exact ih consistent custody
  | @give bond _ _ _ state amount stored recorded _ _ ih =>
      have held := (consistent _ _ stored).le_total recorded
      refine ih (dropped_consistent consistent stored _)
        (custody.drop (consistent _ _ stored) stored fun isZero => ?_)
      rw [decide_eq_true_iff] at isZero
      rw [recorded, Option.getD_some]
      omega

/-- A kick pays back what it takes off the records, and not to the account that kicks. -/
theorem Kicks.custody {kicked : Option (Bond AccountId)} {mid : Stakes AccountId Native}
    {info : CandidateMetadata} {top bottom : Delegations AccountId}
    (kicks : Kicks config candidate before kicked mid) (custody : Custody config before)
    (sound : Sound config before) (agrees : Agrees config before)
    (stored : before.candidateInfo.get candidate = some info)
    (storedTop : before.topDelegations.get candidate = some top)
    (storedBottom : before.bottomDelegations.get candidate = some bottom)
    (fresh : booked before.delegatorState delegator candidate = none)
    (member : ∀ bond, kicked = some bond → bond ∈ table top bottom) :
    Escrowed config before.candidateInfo mid.delegatorState mid.btc ∧
      mid.delegatorState.get delegator = before.delegatorState.get delegator := by
  cases kicked with
  | none =>
      cases kicks
      exact ⟨custody, rfl⟩
  | some bond =>
      obtain ⟨old, found, _, rfl⟩ := kicks
      obtain ⟨recorded, different⟩ := agrees.kicked stored storedTop storedBottom fresh
        (member bond rfl) found
      have kept := sound.records bond.owner old found
      refine ⟨custody.drop kept found fun alone => ?_, StorageMap.get_put_of_ne _ _ different⟩
      rw [kept.total_of_single (decide_eq_true_iff.mp alone) recorded, recorded,
        Option.getD_some]

end Records

/-- Every effect keeps the custody, if candidates only leave without a bond. -/
theorem Custody.effect (custody : Custody config before) (agrees : Agrees config before)
    (effect : Effect config may signs before after)
    (sound : Sound config before)
    (unbonded : ∀ candidate info, may (.exit candidate) →
      before.candidateInfo.get candidate = some info → info.bond = 0) :
    Custody config after := by
  have escrowed : Escrowed config before.candidateInfo before.delegatorState before.btc :=
    custody
  unfold Custody
  cases effect with
  | native | clears | moves => exact custody
  | joins candidate native pool fresh =>
      refine escrowed.put_candidate (exchanges_nothing config _ candidate)
        (some (CandidateMetadata.new 0)) ?_
      simp [fresh, CandidateMetadata.new]
  | amends candidate info status request pool stored =>
      exact escrowed.same_bond stored rfl
  | bondsMore candidate info more pool stored =>
      refine escrowed.put_candidate (exchanges_pull config _ candidate more) (some _) ?_
      rw [stored]
      exact (Nat.zero_add _).trans (Nat.add_comm _ _)
  | bondsLess candidate info request pool stored pending =>
      have below := sound.requests candidate info stored request pending
      refine escrowed.put_candidate (exchanges_send config _ candidate request.amount) (some _) ?_
      rw [stored]
      simp only [Option.map_some, Option.getD_some]
      omega
  | exits candidate info top bottom returned native allowed stored storedTop storedBottom
      returns =>
      have rest : Escrowed config returned.candidateInfo returned.delegatorState returned.btc :=
        returns.custody sound.records custody
      have frame : returned.candidateInfo = before.candidateInfo := by rw [returns.frame]
      rw [frame] at rest
      refine rest.put_candidate (exchanges_nothing config _ candidate) none ?_
      simp [stored, unbonded candidate info allowed stored]
  | delegates delegator candidate amount state info info' top bottom top' bottom' kicked mid less
      pool stored storedTop storedBottom _ fresh _ _ enrolls kicks adds same =>
      obtain ⟨escrowedMid, isState⟩ := kicks.custody custody sound agrees stored storedTop
        storedBottom fresh (agrees.kicked_mem stored storedTop storedBottom fresh adds)
      refine Escrowed.same_bond ?_ stored same.2.1
      refine escrowedMid.put_delegator (exchanges_pull config _ delegator amount) (some state) ?_
      rw [isState, Option.map_some, Option.getD_some, enrolls.total_eq]
      omega
  | revokes delegator candidate amount state request info info' top bottom top' bottom' pool
      storedDelegator found action stored _ _ _ same =>
      have consistent := sound.records delegator state storedDelegator
      obtain ⟨bonded, isBooked, _⟩ := agrees.records.fits candidate delegator request found
      rw [booked_of_stored storedDelegator] at isBooked
      refine Escrowed.same_bond (custody.drop consistent storedDelegator fun alone => ?_) stored
        same.2.1
      rw [consistent.total_of_single (decide_eq_true_iff.mp alone) isBooked, isBooked,
        Option.getD_some]
  | decreases delegator candidate bonded less state request info info' top bottom top' bottom'
      pool storedDelegator _ _ _ recorded below stored _ _ _ same =>
      have enough := (sound.records delegator state storedDelegator).le_total recorded
      refine Escrowed.same_bond ?_ stored same.2.1
      refine escrowed.replace storedDelegator (exchanges_send config _ delegator less) ?_
      simp only [Delegator.rebonded]
      omega
  | increases delegator candidate bonded more state info info' top bottom top' bottom' pool
      storedDelegator _ _ _ stored _ _ _ same =>
      refine Escrowed.same_bond ?_ stored same.2.1
      refine escrowed.replace storedDelegator (exchanges_pull config _ delegator more) ?_
      simp only [Delegator.rebonded]
      omega
  | schedules delegator candidate bonded state request storedDelegator =>
      exact escrowed.replace storedDelegator (exchanges_nothing config _ delegator) rfl
  | cancels delegator candidate state request storedDelegator =>
      exact escrowed.replace storedDelegator (exchanges_nothing config _ delegator) rfl

end Popsicle
