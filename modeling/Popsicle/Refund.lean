import Popsicle.Staking

/-!
# Removing a delegation from its delegator

A kick, a revoke and a candidate exit all take a delegation out of the state of
its delegator: the amount is refunded, the pending request is forgotten, and the
delegator is stored again or removed.  `dropped` is that effect as one update.
-/

namespace Popsicle

open Foundation Exec Keyed

variable {AccountId Native : Type} [LinearOrder AccountId] {config : Config AccountId Native}

/-! ## Transfers -/

/-- The pallet can send an amount to an account. -/
def Refundable (config : Config AccountId Native) (balance : AccountId → Nat)
    (dest : AccountId) (amount : Nat) : Prop :=
  config.asset.Accepts balance config.palletAccount dest amount

instance (config : Config AccountId Native) (balance : AccountId → Nat)
    (dest : AccountId) (amount : Nat) :
    Decidable (Refundable config balance dest amount) :=
  inferInstanceAs (Decidable (Asset.Accepts _ _ _ _ _))

/-- The asset after a transfer of the pallet that it accepts. -/
def Ledger.pay (btc : Ledger AccountId) (config : Config AccountId Native)
    (source dest : AccountId) (amount : Nat) : Ledger AccountId :=
  btc.record config.palletAccount source dest amount
    (config.asset.after btc.balance source dest amount)

@[simp]
theorem Ledger.transfers_pay (btc : Ledger AccountId) (config : Config AccountId Native)
    (source dest : AccountId) (amount : Nat) :
    (btc.pay config source dest amount).transfers =
      btc.transfers ++ [⟨source, dest, amount⟩] := rfl

theorem ends_transferBtc {source dest : AccountId} {amount : Nat}
    {stakes : Stakes AccountId Native} {post : Unit → Stakes AccountId Native → Prop}
    {excuse : Fault → Stakes AccountId Native → Prop} :
    (transferBtc config source dest amount).Ends stakes post excuse ↔
      (config.asset.Accepts stakes.btc.balance source dest amount →
        post () { stakes with btc := stakes.btc.pay config source dest amount }) ∧
      (¬config.asset.Accepts stakes.btc.balance source dest amount →
        excuse (.staking .transferFailed) stakes) := by
  simp only [transferBtc, ends_bind, ends_read, ends_require, ends_write, Asset.Accepts,
    Ledger.pay, Asset.after]
  cases config.asset.transfer stakes.btc.balance source dest amount with
  | none => simp
  | some balance => simp

/-! ## The state of a delegator -/

namespace Delegator

/-- The record of a delegator agrees with itself. -/
structure Consistent (account : AccountId) (state : Delegator AccountId) : Prop where
  id : state.id = account
  sorted : SortedByOwner state.delegations.entries
  total : state.total = Delegations.sumAmounts state.delegations.entries

/-- The record without the delegation to a sequencer. -/
def without (self : Delegator AccountId) (sequencer : AccountId) : Delegator AccountId :=
  { self with
    delegations := ⟨erase Bond.owner self.delegations.entries sequencer⟩
    total := self.total - (self.getBondAmount sequencer).getD 0 }

/-- The record with a pending amount taken off. -/
def forget (self : Delegator AccountId) (amount : Nat) : Delegator AccountId :=
  { self with lessTotal := self.lessTotal - amount }

variable {account sequencer : AccountId} {self : Delegator AccountId}

theorem getBondAmount_eq_some {amount : Nat} :
    self.getBondAmount sequencer = some amount ↔
      lookup Bond.owner self.delegations.entries sequencer =
        some { owner := sequencer, amount } := by
  rw [getBondAmount, Option.map_eq_some_iff]
  constructor
  · rintro ⟨bond, found, rfl⟩
    rw [found, ← key_of_lookup found]
  · intro found
    exact ⟨_, found, rfl⟩

theorem getBondAmount_eq_none :
    self.getBondAmount sequencer = none ↔
      lookup Bond.owner self.delegations.entries sequencer = none := by
  rw [getBondAmount, Option.map_eq_none_iff]

theorem Consistent.total_eq (consistent : Consistent account self) {amount : Nat}
    (recorded : self.getBondAmount sequencer = some amount) :
    self.total = amount +
      Delegations.sumAmounts (erase Bond.owner self.delegations.entries sequencer) := by
  rw [consistent.total, Delegations.sumAmounts,
    consistent.sorted.distinct.sum_erase (getBondAmount_eq_some.mp recorded)]
  rfl

theorem Consistent.le_total (consistent : Consistent account self) {amount : Nat}
    (recorded : self.getBondAmount sequencer = some amount) : amount ≤ self.total := by
  have split := consistent.total_eq recorded
  omega

theorem Consistent.total_of_single (consistent : Consistent account self)
    (single : self.delegations.entries.length = 1) {amount : Nat}
    (recorded : self.getBondAmount sequencer = some amount) : self.total = amount := by
  have length := consistent.sorted.distinct.length_erase
    (getBondAmount_eq_some.mp recorded)
  have isNil : erase Bond.owner self.delegations.entries sequencer = [] := by
    rw [← List.length_eq_zero_iff]
    omega
  rw [consistent.total_eq recorded, isNil, Delegations.sumAmounts_nil, Nat.add_zero]

theorem without_of_none (absent : self.getBondAmount sequencer = none) :
    self.without sequencer = self := by
  have kept := erase_eq_self (getBondAmount_eq_none.mp absent)
  simp [without, absent, kept]

theorem Consistent.without (consistent : Consistent account self) (sequencer : AccountId) :
    Consistent account (self.without sequencer) := by
  cases recorded : self.getBondAmount sequencer with
  | none => rwa [without_of_none recorded]
  | some amount =>
      refine ⟨consistent.id, consistent.sorted.sublist (erase_sublist _ _), ?_⟩
      have split := consistent.total_eq recorded
      simp only [Delegator.without, recorded, Option.getD_some]
      omega

theorem Consistent.forget (consistent : Consistent account self) (amount : Nat) :
    Consistent account (self.forget amount) :=
  ⟨consistent.id, consistent.sorted, consistent.total⟩

theorem total_without (self : Delegator AccountId) (sequencer : AccountId) :
    (self.without sequencer).total =
      self.total - (self.getBondAmount sequencer).getD 0 := rfl

theorem getBondAmount_without (self : Delegator AccountId) (sequencer other : AccountId) :
    (self.without sequencer).getBondAmount other =
      if other = sequencer then none else self.getBondAmount other := by
  simp only [getBondAmount, without, lookup_erase]
  split <;> rfl

end Delegator

/-- Removing a delegation refunds it, or panics if the refund fails. -/
theorem ends_rmDelegation {account sequencer : AccountId} {self : Delegator AccountId}
    (consistent : Delegator.Consistent account self) {stakes : Stakes AccountId Native}
    {post : Delegator AccountId × Option Nat → Stakes AccountId Native → Prop}
    {excuse : Fault → Stakes AccountId Native → Prop} :
    (self.rmDelegation config sequencer).Ends stakes post excuse ↔
      (∀ amount, self.getBondAmount sequencer = some amount →
        (Refundable config stakes.btc.balance account amount →
          post (self.without sequencer, some (self.total - amount))
            { stakes with btc := stakes.btc.pay config config.palletAccount account amount }) ∧
        (¬Refundable config stakes.btc.balance account amount →
          excuse (.panic .decreasingLockCannotFail) stakes)) ∧
      (self.getBondAmount sequencer = none → post (self, none) stakes) := by
  have smaller : SortedByOwner (erase Bond.owner self.delegations.entries sequencer) :=
    consistent.sorted.sublist (erase_sublist _ _)
  have amountEq : (lookupLast Bond.owner self.delegations.entries sequencer).map Bond.amount =
      self.getBondAmount sequencer := by
    rw [consistent.sorted.distinct.lookupLast, Delegator.getBondAmount]
  unfold Delegator.rmDelegation
  simp only [amountEq, smaller.fromVec]
  cases recorded : self.getBondAmount sequencer with
  | none => simp
  | some amount =>
      simp only [Delegator.totalSub, expectOk, ends_bind, ends_handle, ends_transferBtc,
        ends_pure, ends_fail, consistent.id, Option.some.injEq, forall_eq', reduceCtorEq,
        false_implies, and_true, Delegator.without, recorded, Option.getD_some, Refundable]

/-! ## Requests -/

/-- The amount a delegator has pending on a list of requests. -/
def pendingAmount (scheduledRequests : List (ScheduledRequest AccountId))
    (delegator : AccountId) : Nat :=
  ((findRequest scheduledRequests delegator).map fun request => request.action.amount).getD 0

/-- The requests without that of a delegator towards a sequencer. -/
def forgetRequest (stakes : Stakes AccountId Native) (sequencer delegator : AccountId) :
    StorageMap AccountId (List (ScheduledRequest AccountId)) :=
  if (findRequest (stakes.requests sequencer) delegator).isSome then
    stakes.delegationScheduledRequests.insert sequencer
      (removeRequest (stakes.requests sequencer) delegator)
  else stakes.delegationScheduledRequests

theorem ends_delegationRemoveRequestWithState {sequencer delegator : AccountId}
    {state : Delegator AccountId} {stakes : Stakes AccountId Native}
    {post : Delegator AccountId → Stakes AccountId Native → Prop}
    {excuse : Fault → Stakes AccountId Native → Prop} :
    (delegationRemoveRequestWithState sequencer delegator state).Ends stakes post excuse ↔
      post (state.forget (pendingAmount (stakes.requests sequencer) delegator))
        { stakes with
          delegationScheduledRequests := forgetRequest stakes sequencer delegator } := by
  simp only [delegationRemoveRequestWithState, cancelRequestWithState, ends_bind, ends_read]
  cases found : findRequest (stakes.requests sequencer) delegator with
  | none => simp [forgetRequest, pendingAmount, found, Delegator.forget]
  | some request => simp [forgetRequest, pendingAmount, found, Delegator.forget]

/-! ## The whole effect -/

/-- The record a delegator keeps when one of its delegations is dropped. -/
def Delegator.droppedRecord (state : Delegator AccountId)
    (requests : List (ScheduledRequest AccountId)) (candidate delegator : AccountId) :
    Delegator AccountId :=
  (state.without candidate).forget (pendingAmount requests delegator)

/-- The BTC after the refund of a delegation, if there is one. -/
def Ledger.refund (btc : Ledger AccountId) (config : Config AccountId Native)
    (delegator : AccountId) : Option Nat → Ledger AccountId
  | some amount => btc.pay config config.palletAccount delegator amount
  | none => btc

/-- The state after a delegation has been dropped. -/
def dropped (config : Config AccountId Native) (candidate delegator : AccountId)
    (state : Delegator AccountId) (leaving : Bool) (stakes : Stakes AccountId Native) :
    Stakes AccountId Native :=
  { stakes with
    delegatorState := stakes.delegatorState.put delegator
      (if leaving then none
        else some (state.droppedRecord (stakes.requests candidate) candidate delegator))
    delegationScheduledRequests := forgetRequest stakes candidate delegator
    btc := stakes.btc.refund config delegator (state.getBondAmount candidate) }

theorem ends_kick {candidate : AccountId} {bond : Bond AccountId}
    {stakes : Stakes AccountId Native}
    (consistent : ∀ state, stakes.delegatorState.get bond.owner = some state →
      Delegator.Consistent bond.owner state)
    {post : Unit → Stakes AccountId Native → Prop}
    {excuse : Fault → Stakes AccountId Native → Prop} :
    (CandidateMetadata.kick config candidate bond).Ends stakes post excuse ↔
      (∀ state, stakes.delegatorState.get bond.owner = some state →
        ((∀ amount, state.getBondAmount candidate = some amount →
            Refundable config stakes.btc.balance bond.owner amount) →
          post () (dropped config candidate bond.owner state
            (state.delegations.entries.length = 1) stakes)) ∧
        (∀ amount, state.getBondAmount candidate = some amount →
          ¬Refundable config stakes.btc.balance bond.owner amount →
          excuse (.panic .decreasingLockCannotFail) stakes)) ∧
      (stakes.delegatorState.get bond.owner = none →
        excuse (.panic .delegatorStateExists) stakes) := by
  simp only [CandidateMetadata.kick, ends_bind, ends_read, ends_require]
  refine and_congr_left fun _ => forall_congr' fun state => forall_congr' fun stored => ?_
  rw [ends_rmDelegation (consistent state stored)]
  simp only [ends_delegationRemoveRequestWithState]
  have store : ∀ (record : Delegator AccountId) (before : Stakes AccountId Native),
      (if decide (state.delegations.entries.length = 1) = true then
          write fun stakes => { stakes with
            delegatorState := stakes.delegatorState.remove bond.owner }
        else write fun stakes => { stakes with
            delegatorState := stakes.delegatorState.insert bond.owner record } :
          StakesM AccountId Native Unit).Ends before post excuse ↔
        post () { before with
          delegatorState := before.delegatorState.put bond.owner
            (if decide (state.delegations.entries.length = 1) = true then none
              else some record) } := by
    intro record before
    split <;> rfl
  simp only [store]
  cases recorded : state.getBondAmount candidate with
  | none =>
      simp [dropped, Ledger.refund, Delegator.droppedRecord, recorded,
        Delegator.without_of_none recorded]
  | some amount =>
      have effect : ∀ leaving, dropped config candidate bond.owner state leaving stakes =
          { stakes with
            delegatorState := stakes.delegatorState.put bond.owner
              (if leaving then none else some ((state.without candidate).forget
                (pendingAmount (stakes.requests candidate) bond.owner)))
            delegationScheduledRequests := forgetRequest stakes candidate bond.owner
            btc := stakes.btc.pay config config.palletAccount bond.owner amount } := by
        intro leaving
        simp [dropped, Ledger.refund, recorded, Delegator.droppedRecord]
      simp only [effect, Option.some.injEq, forall_eq', reduceCtorEq, false_implies, and_true]
      exact Iff.rfl

end Popsicle
