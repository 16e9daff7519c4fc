import Popsicle.Consistency
import Popsicle.Foundation.Contest

/-!
# Competing delegations

Delegations of newcomers to a candidate that has none compete for the places in its two
lists.  Depending on the order one of them is refused, or kicked later with a refund, or
bumped from the top to the bottom; which ones are delegated in the end does not depend
on it.
-/

namespace Popsicle

open Foundation Exec Keyed Ranked

variable {AccountId Native : Type} [LinearOrder AccountId] {config : Config AccountId Native}

/-! ## Refusals -/

/-- Both lists are full and the amount is not above the lowest of either. -/
def CandidateMetadata.Refuses (self : CandidateMetadata) (amount : Nat) : Prop :=
  (self.topCapacity = .full ∧ amount ≤ self.lowestTopDelegationAmount) ∧
    self.bottomCapacity = .full ∧ amount ≤ self.lowestBottomDelegationAmount

section Adding

variable {stakes : Stakes AccountId Native} {candidate : AccountId} {info : CandidateMetadata}
  {top bottom : Delegations AccountId} {delegation : Bond AccountId}

/-- Only a delegation that is kicked from a full bottom is reported. -/
theorem ends_addTopDelegation_less :
    (info.addTopDelegation config candidate delegation).Ends stakes
      (fun result _ => ∀ less, result.2 = some less →
        info.bottomCapacity = .full ∧ info.lowestBottomDelegationAmount = less)
      (fun _ _ => True) := by
  simp only [CandidateMetadata.addTopDelegation, CandidateMetadata.readTop,
    CandidateMetadata.insertTop, ends_bind, ends_read, ends_require, ends_ite, ends_write,
    ends_pure]
  refine ⟨fun top _ => ⟨fun _ => ⟨fun popped _ => ?_, fun _ => trivial⟩, fun _ => ?_⟩,
    fun _ => trivial⟩
  · refine .of_forall (fun _ _ => .of_forall (fun _ _ less isLess => ?_) fun _ _ => trivial)
      fun _ _ => trivial
    simpa using isLess
  · refine .of_forall (fun _ _ less isLess => ?_) fun _ _ => trivial
    cases isLess

/-- A delegation is refused only by full lists, unless a kick fails. -/
theorem ends_addDelegation_refusal
    (storedTop : stakes.topDelegations.get candidate = some top)
    (storedBottom : stakes.bottomDelegations.get candidate = some bottom)
    (pooled : Pooled config candidate (some info) stakes)
    (consistent : ∀ account state, stakes.delegatorState.get account = some state →
      Delegator.Consistent account state) :
    (info.addDelegation config candidate delegation).Ends stakes
      (fun result _ => ∀ less, result.2.2 = some less →
        info.bottomCapacity = .full ∧ info.lowestBottomDelegationAmount = less)
      (fun fault _ => Listed config info top bottom → Roomy config →
        info.Refuses delegation.amount ∨
          ∃ kicked ∈ bottom.delegations, KickFails config candidate stakes kicked fault) := by
  have topEnds : (info.addTopDelegation config candidate delegation).Ends stakes _ _ :=
    (ends_addTopDelegation storedTop storedBottom pooled consistent).and
      ends_addTopDelegation_less
  unfold CandidateMetadata.addDelegation
  split
  next isFull =>
    rw [ends_ite]
    constructor
    · intro _
      simp only [ends_bind, ends_pure]
      refine topEnds.mono (fun _ _ outcome => outcome.2) ?_
      exact fun _ _ fails listed roomy => .inr (fails.1 listed roomy)
    · intro notGreater
      have bottomEnds : (info.addBottomDelegation config false candidate delegation).Ends
          stakes _ _ := ends_addBottomDelegation storedBottom consistent
      simp only [ends_bind, ends_ite, ends_ensure, ends_pure]
      refine ⟨fun bottomFull => ⟨fun _ => ?_, fun notAbove listed _ => ?_⟩, fun _ => ?_⟩
      · refine bottomEnds.mono (fun _ _ _ less isLess => ?_) fun _ _ fails _ roomy =>
          .inr (fails roomy)
        simpa using isLess
      · exact .inl ⟨⟨isFull, Nat.le_of_not_lt notGreater⟩, bottomFull,
          Nat.le_of_not_lt notAbove⟩
      · refine bottomEnds.mono (fun _ _ _ less isLess => ?_) fun _ _ fails _ roomy =>
          .inr (fails roomy)
        simpa using isLess
  next =>
    simp only [ends_bind, ends_pure]
    refine topEnds.mono (fun _ _ _ less isLess => ?_) fun _ _ fails listed roomy =>
      .inr (fails.1 listed roomy)
    cases isLess

end Adding

/-! ## Ranked bonds as the lists of a candidate -/

/-- The top list with the first bonds of a ranking. -/
def topOf (config : Config AccountId Native) (bonds : List (Bond AccountId)) :
    Delegations AccountId where
  delegations := bonds.take config.maxTopDelegationsPerCandidate
  total := Delegations.sumAmounts (bonds.take config.maxTopDelegationsPerCandidate)

/-- The bottom list with the other bonds.  Its stored total may be ahead of them. -/
def bottomOf (config : Config AccountId Native) (ahead : Nat) (bonds : List (Bond AccountId)) :
    Delegations AccountId where
  delegations := bonds.drop config.maxTopDelegationsPerCandidate
  total := ahead + Delegations.sumAmounts (bonds.drop config.maxTopDelegationsPerCandidate)

/-- The metadata of a candidate whose delegations are a ranking of bonds. -/
def CandidateMetadata.holding (config : Config AccountId Native) (self : CandidateMetadata)
    (ahead : Nat) (bonds : List (Bond AccountId)) : CandidateMetadata :=
  { (self.resetBottomData config (bottomOf config ahead bonds)).withTop config
      (topOf config bonds) with
    delegationCount := bonds.length }

section Ranking

variable {info info' : CandidateMetadata} {top bottom : Delegations AccountId} {ahead : Nat}
  {bonds : List (Bond AccountId)}

omit [LinearOrder AccountId] in
theorem table_of (config : Config AccountId Native) (ahead : Nat)
    (bonds : List (Bond AccountId)) :
    table (topOf config bonds) (bottomOf config ahead bonds) = bonds :=
  List.take_append_drop _ _

omit [LinearOrder AccountId] in
theorem Listed.drop_table (listed : Listed config info top bottom) :
    (table top bottom).drop config.maxTopDelegationsPerCandidate = bottom.delegations := by
  have whole := List.take_append_drop config.maxTopDelegationsPerCandidate (table top bottom)
  rw [listed.take_table] at whole
  exact List.append_cancel_left whole

omit [LinearOrder AccountId] in
theorem Listed.eq_of (listed : Listed config info' top bottom) (roomy : Roomy config)
    (same : SameTerms info info')
    (total : bottom.total = ahead + Delegations.sumAmounts bottom.delegations) :
    top = topOf config (table top bottom) ∧ bottom = bottomOf config ahead (table top bottom) ∧
      info' = info.holding config ahead (table top bottom) := by
  have isTop : top = topOf config (table top bottom) := by
    rw [topOf, listed.take_table, ← listed.topTotal]
  have isBottom : bottom = bottomOf config ahead (table top bottom) := by
    rw [bottomOf, listed.drop_table, ← total]
  refine ⟨isTop, isBottom, ?_⟩
  obtain ⟨lowestTop, topCapacity, counted⟩ := listed.cachedTop
  obtain ⟨lowestBottom, highestBottom, bottomCapacity⟩ := listed.cachedBottom
  obtain ⟨status, bond, request⟩ := same
  rw [Delegations.cachedCapacity_eq roomy.1] at topCapacity
  rw [Delegations.cachedCapacity_eq roomy.2] at bottomCapacity
  rw [CandidateMetadata.holding, ← isTop, ← isBottom, ← listed.delegationCount]
  rw [bond] at counted
  cases info'
  simp only [CandidateMetadata.withTop, CandidateMetadata.resetBottomData,
    CandidateMetadata.mk.injEq]
  exact ⟨bond, trivial, counted, lowestTop, highestBottom, lowestBottom, topCapacity,
    bottomCapacity, request, status⟩

end Ranking

theorem PoolHolds.unique {pool other : BoundedOrderedSet (Bond AccountId)}
    {totals : AccountId → Option Nat} (holds : PoolHolds config pool totals)
    (otherHolds : PoolHolds config other totals) : pool = other := by
  have sameLookup : ∀ account, lookup Bond.owner pool.entries account =
      lookup Bond.owner other.entries account := by
    intro account
    have sameAmount := (holds.amounts account).trans (otherHolds.amounts account).symm
    rw [poolAmount, poolAmount] at sameAmount
    cases found : lookup Bond.owner pool.entries account with
    | none =>
        rw [found, Option.map_none, eq_comm, Option.map_eq_none_iff] at sameAmount
        exact sameAmount.symm
    | some bond =>
        rw [found, Option.map_some, eq_comm, Option.map_eq_some_iff] at sameAmount
        obtain ⟨otherBond, otherFound, sameAmount⟩ := sameAmount
        have sameOwner := (key_of_lookup found).trans (key_of_lookup otherFound).symm
        rw [otherFound]
        cases bond
        cases otherBond
        simp_all
  have perm := holds.sorted.distinct.perm_of_lookup otherHolds.sorted.distinct sameLookup
  have equal : pool.entries = other.entries := by
    refine List.Perm.eq_of_pairwise ?_ holds.sorted otherHolds.sorted perm
    intro left right _ _ less greater
    exact absurd (less.trans greater) (lt_irrefl _)
  cases pool
  cases other
  exact congrArg BoundedOrderedSet.mk equal

/-! ## A newcomer delegates -/

/-- A first delegation enters the lists of a candidate, perhaps in the place of the lowest
of a full bottom. -/
structure Enters (config : Config AccountId Native) (candidate : AccountId)
    (before : Stakes AccountId Native) (info : CandidateMetadata)
    (top bottom : Delegations AccountId) (delegation : Bond AccountId)
    (kicked : Option (Bond AccountId)) (info' : CandidateMetadata)
    (top' bottom' : Delegations AccountId) (after : Stakes AccountId Native) : Prop where
  listed : Listed config info' top' bottom'
  same : SameTerms info info'
  exchanged : Exchanged kicked.toList [delegation] (table top bottom) (table top' bottom')
  drifts : Drifts bottom bottom' 0
  lowest : ∀ bond, kicked = some bond → bond.amount ≤ delegation.amount ∧
    info.bottomCapacity = .full ∧ info.lowestBottomDelegationAmount = bond.amount
  stored : ∃ mid pool, Kicks config candidate before kicked mid ∧ after = { mid with
    delegatorState := mid.delegatorState.insert delegation.owner
      (Delegator.new delegation.owner candidate delegation.amount)
    candidateInfo := before.candidateInfo.insert candidate info'
    topDelegations := before.topDelegations.insert candidate top'
    bottomDelegations := before.bottomDelegations.insert candidate bottom'
    total := before.total + (delegation.amount - (kicked.map Bond.amount).getD 0)
    candidatePool := pool
    btc := mid.btc.pay config delegation.owner config.palletAccount delegation.amount }

namespace Enters

variable {before after : Stakes AccountId Native} {candidate : AccountId}
  {info info' : CandidateMetadata} {top bottom top' bottom' : Delegations AccountId}
  {delegation bond : Bond AccountId} {kicked : Option (Bond AccountId)}
  (enters : Enters config candidate before info top bottom delegation kicked info' top' bottom'
    after)
include enters

theorem kicked_mem (isKicked : kicked = some bond) : bond ∈ table top bottom :=
  enters.exchanged.mem_before (by simp [isKicked])

theorem sum_eq : Delegations.sumAmounts (table top' bottom') + (kicked.map Bond.amount).getD 0 =
    Delegations.sumAmounts (table top bottom) + delegation.amount := by
  have sum := enters.exchanged.sum_map Bond.amount
  cases kicked <;> simpa [Delegations.sumAmounts] using sum

theorem kicked_le : (kicked.map Bond.amount).getD 0 ≤ delegation.amount := by
  cases kicked with
  | none => exact Nat.zero_le _
  | some bond => exact (enters.lowest bond rfl).1

end Enters

section Newcomer

variable {stakes : Stakes AccountId Native} {candidate delegator : AccountId}
  {info : CandidateMetadata} {top bottom : Delegations AccountId} {amount : Nat}

/-- A kick does not take BTC from anybody else than the pallet. -/
theorem Kicks.le_balance (credits : config.asset.Credits) {kicked : Option (Bond AccountId)}
    {mid : Stakes AccountId Native} (kicks : Kicks config candidate stakes kicked mid)
    {account : AccountId}
    (outside : account ≠ config.palletAccount) :
    stakes.btc.balance account ≤ mid.btc.balance account := by
  cases kicked with
  | none =>
      cases kicks
      exact le_refl _
  | some bond =>
      obtain ⟨state, _, _, rfl⟩ := kicks
      cases recorded : state.getBondAmount candidate with
      | none => simp [dropped, recorded, Ledger.refund]
      | some refund =>
          simp only [dropped, recorded, Ledger.refund]
          exact Ledger.le_pay_other credits outside

/-- The delegation of a newcomer enters, or full lists refuse it. -/
theorem ends_delegateInner_newcomer (sound : Sound config stakes) (roomy : Roomy config)
    (ledger : config.asset.IsLedger) (minimum : config.minDelegation ≤ amount)
    (positive : 0 < amount) (stored : stakes.candidateInfo.get candidate = some info)
    (active : info.isActive = true)
    (storedTop : stakes.topDelegations.get candidate = some top)
    (storedBottom : stakes.bottomDelegations.get candidate = some bottom)
    (listed : Listed config info top bottom)
    (newcomer : stakes.delegatorState.get delegator = none)
    (apart : stakes.candidateInfo.get delegator = none)
    (fresh : lookup Bond.owner (table top bottom) delegator = none)
    (outside : delegator ≠ config.palletAccount)
    (funded : amount ≤ stakes.btc.balance delegator)
    (refundable : ∀ bond ∈ bottom.delegations, ∀ fault,
      ¬KickFails config candidate stakes bond fault)
    {candidateHint hint : Nat} (hinted : info.delegationCount ≤ candidateHint) :
    (delegateInner config candidate delegator amount candidateHint hint).Ends stakes
      (fun _ after => ∃ kicked info' top' bottom',
        Enters config candidate stakes info top bottom { owner := delegator, amount } kicked
          info' top' bottom' after)
      (fun _ _ => info.Refuses amount) := by
  simp only [delegateInner, delegatorStateWith, reducibleBalance, readCandidate, ends_bind,
    ends_read, ends_ensure, ends_require, ends_pure, funded, minimum, newcomer, apart, stored,
    hinted, active, Option.map_some, Option.getD_some, ge_iff_le, true_implies,
    not_true_eq_false, false_implies, and_true, Option.some.injEq, forall_eq', reduceCtorEq]
  have pooled := sound.pooled stored
  refine Ends.mono ((ends_addDelegation storedTop storedBottom pooled sound.records).and
    (ends_addDelegation_refusal storedTop storedBottom pooled sound.records)) ?_ ?_
  · rintro ⟨info', _, less⟩ after ⟨⟨kicked, mid, kicks, relisted, isLess⟩, isLowest⟩
    obtain ⟨top', bottom', pool, rfl, _, same, adds⟩ := relisted
    simp only [ends_transferBtc, storeCandidate, storeDelegator, ends_write]
    obtain ⟨listed', exchanged, drifts, below⟩ := adds listed fresh
    have kept := kicks.le_balance ledger.exact.credits outside
    have reported : less = kicked.map Bond.amount := isLess listed
    refine ⟨fun _ => ⟨kicked, info', top', bottom', listed', same, exchanged, drifts, ?_, ?_⟩,
      fun unpaid => absurd (ledger.accepts _ _ _ _ positive (funded.trans kept)) unpaid⟩
    · rintro bond rfl
      exact ⟨below bond rfl, isLowest bond.amount reported⟩
    · refine ⟨mid, pool, kicks, ?_⟩
      rw [reported, kicks.frame]
  · intro fault _ fails
    refine (fails.2 listed roomy).resolve_right ?_
    rintro ⟨bond, member, failed⟩
    exact refundable bond member fault failed

end Newcomer

/-! ## Delegated bonds -/

omit [LinearOrder AccountId] in
theorem Delegations.le_sumAmounts {bonds : List (Bond AccountId)} {bond : Bond AccountId}
    (member : bond ∈ bonds) : bond.amount ≤ sumAmounts bonds :=
  List.single_le_sum (fun _ _ => Nat.zero_le _) bond.amount (List.mem_map_of_mem member)

theorem getBondAmount_new (delegator candidate : AccountId) (amount : Nat) :
    (Delegator.new delegator candidate amount).getBondAmount candidate = some amount := by
  rw [Delegator.getBondAmount, new_entries, lookup_cons, if_pos rfl]
  rfl

/-- What an account has in a list of bonds. -/
def stakeIn (bonds : List (Bond AccountId)) (account : AccountId) : Nat :=
  ((lookup Bond.owner bonds account).map Bond.amount).getD 0

/-- Starting from a candidate without delegations, a ranking of bonds is delegated to it
by newcomers, and no BTC of anybody else has moved. -/
structure Delegated (config : Config AccountId Native) (start : Stakes AccountId Native)
    (candidate : AccountId) (info : CandidateMetadata) (ahead : Nat)
    (bonds : List (Bond AccountId)) (stakes : Stakes AccountId Native) : Prop where
  listed : Listed config (info.holding config ahead bonds) (topOf config bonds)
    (bottomOf config ahead bonds)
  candidateInfo : stakes.candidateInfo =
    start.candidateInfo.insert candidate (info.holding config ahead bonds)
  topDelegations : stakes.topDelegations =
    start.topDelegations.insert candidate (topOf config bonds)
  bottomDelegations : stakes.bottomDelegations =
    start.bottomDelegations.insert candidate (bottomOf config ahead bonds)
  candidatePool : PoolHolds config stakes.candidatePool (activeTotals stakes.candidateInfo)
  total : stakes.total = start.total + Delegations.sumAmounts bonds
  delegatorState : ∀ account, stakes.delegatorState.get account =
    ((lookup Bond.owner bonds account).map fun bond =>
      Delegator.new account candidate bond.amount).or (start.delegatorState.get account)
  escrow : stakes.btc.balance config.palletAccount =
    start.btc.balance config.palletAccount + Delegations.sumAmounts bonds
  balances : ∀ account, account ≠ config.palletAccount →
    stakes.btc.balance account + stakeIn bonds account = start.btc.balance account

namespace Delegated

variable {start stakes after : Stakes AccountId Native} {candidate : AccountId}
  {info info' : CandidateMetadata} {ahead : Nat} {bonds : List (Bond AccountId)}
  {top bottom top' bottom' : Delegations AccountId} {delegation bond : Bond AccountId}
  {kicked : Option (Bond AccountId)}

theorem initially (sound : Sound config start) (agrees : Agrees config start) (roomy : Roomy config)
    (stored : start.candidateInfo.get candidate = some info)
    (storedBottom : start.bottomDelegations.get candidate = some bottom)
    (undelegated : info.delegationCount = 0) :
    Delegated config start candidate info bottom.total [] start := by
  obtain ⟨top, other, storedTop, storedOther⟩ := sound.exists_lists stored
  rw [storedBottom] at storedOther
  cases storedOther
  obtain ⟨listed, _⟩ := agrees.listed stored storedTop storedBottom
  have isNil : table top bottom = [] := by
    rw [← List.length_eq_zero_iff, ← listed.delegationCount, undelegated]
  have bottomNil : bottom.delegations = [] := (List.append_eq_nil_iff.mp isNil).2
  have sameTerms : SameTerms info info := ⟨rfl, rfl, rfl⟩
  have total : bottom.total = bottom.total + Delegations.sumAmounts bottom.delegations := by
    rw [bottomNil, Delegations.sumAmounts_nil, Nat.add_zero]
  obtain ⟨isTop, isBottom, isInfo⟩ := listed.eq_of roomy sameTerms total
  rw [isNil] at isTop isBottom isInfo
  refine
    { listed := ?_, candidateInfo := ?_, topDelegations := ?_, bottomDelegations := ?_
      candidatePool := sound.pool, total := rfl, delegatorState := fun _ => rfl, escrow := rfl
      balances := fun _ _ => rfl }
  · rw [← isTop, ← isBottom, ← isInfo]
    exact listed
  · rw [← isInfo, StorageMap.insert_eq_self stored]
  · rw [← isTop, StorageMap.insert_eq_self storedTop]
  · rw [← isBottom, StorageMap.insert_eq_self storedBottom]

variable (delegated : Delegated config start candidate info ahead bonds stakes)
include delegated

theorem stored : stakes.candidateInfo.get candidate = some (info.holding config ahead bonds) := by
  rw [delegated.candidateInfo, StorageMap.get_insert_self]

theorem storedTop : stakes.topDelegations.get candidate = some (topOf config bonds) := by
  rw [delegated.topDelegations, StorageMap.get_insert_self]

theorem storedBottom :
    stakes.bottomDelegations.get candidate = some (bottomOf config ahead bonds) := by
  rw [delegated.bottomDelegations, StorageMap.get_insert_self]

theorem distinct : Distinct Bond.owner bonds := by
  have distinct := delegated.listed.distinct
  rwa [table_of] at distinct

theorem descending : Descending Bond.amount bonds := by
  have descending : Descending Bond.amount (table (topOf config bonds)
    (bottomOf config ahead bonds)) := delegated.listed.tiers.descending
  rwa [table_of] at descending

theorem record (member : bond ∈ bonds) : stakes.delegatorState.get bond.owner =
    some (Delegator.new bond.owner candidate bond.amount) := by
  rw [delegated.delegatorState, delegated.distinct.lookup_of_mem member]
  rfl

theorem kick_cannot_fail (ledger : config.asset.IsLedger)
    (positive : ∀ bond ∈ bonds, 0 < bond.amount) (member : bond ∈ bonds) (fault : Fault) :
    ¬KickFails config candidate stakes bond fault := by
  have record := delegated.record member
  have held := Delegations.le_sumAmounts member
  rintro (⟨missing, _⟩ | ⟨state, amount, stored, recorded, refused, _⟩)
  · rw [record] at missing
    cases missing
  · rw [record] at stored
    cases stored
    rw [getBondAmount_new] at recorded
    cases recorded
    refine refused (ledger.accepts _ _ _ _ (positive bond member) ?_)
    rw [delegated.escrow]
    exact held.trans (Nat.le_add_left _ _)

theorem kick (member : bond ∈ bonds) (kicks : Kicks config candidate stakes (some bond) after) :
    after.delegatorState = stakes.delegatorState.put bond.owner none ∧
      after.btc = stakes.btc.pay config config.palletAccount bond.owner bond.amount := by
  obtain ⟨state, stored, _, rfl⟩ := kicks
  rw [delegated.record member] at stored
  cases stored
  simp [dropped, new_entries, getBondAmount_new, Ledger.refund]

section Entering

variable (enters : Enters config candidate stakes (info.holding config ahead bonds)
  (topOf config bonds) (bottomOf config ahead bonds) delegation kicked info' top' bottom' after)
include enters

omit delegated in
theorem kicked_mem (isKicked : kicked = some bond) : bond ∈ bonds := by
  have member := enters.kicked_mem isKicked
  rwa [table_of] at member

theorem lookup_enters (query : AccountId) : lookup Bond.owner (table top' bottom') query =
    if query = delegation.owner then some delegation
    else if kicked.map Bond.owner = some query then none
    else lookup Bond.owner bonds query := by
  have exchanged := enters.exchanged
  rw [table_of] at exchanged
  exact exchanged.lookup_replaced delegated.distinct enters.listed.distinct query

/-- The record of the new delegator is added, and that of a kicked one is gone. -/
theorem record_enters (newcomers : ∀ bond ∈ bonds, start.delegatorState.get bond.owner = none)
    (account : AccountId) : after.delegatorState.get account =
      ((lookup Bond.owner (table top' bottom') account).map fun bond =>
        Delegator.new account candidate bond.amount).or (start.delegatorState.get account) := by
  obtain ⟨mid, pool, kicks, rfl⟩ := enters.stored
  rw [delegated.lookup_enters enters]
  by_cases isNew : account = delegation.owner
  · rw [if_pos isNew, isNew]
    exact StorageMap.get_insert_self _ _ _
  · rw [if_neg isNew]
    dsimp only
    rw [StorageMap.get_insert_of_ne _ _ isNew]
    cases kicked with
    | none =>
        cases kicks
        exact delegated.delegatorState account
    | some bond =>
        have member := kicked_mem enters rfl
        rw [(delegated.kick member kicks).1, StorageMap.get_put]
        by_cases isKicked : account = bond.owner
        · rw [if_pos isKicked, isKicked, Option.map_some, if_pos rfl, newcomers bond member]
          rfl
        · rw [if_neg isKicked, Option.map_some, if_neg fun same =>
            isKicked (Option.some.inj same).symm]
          exact delegated.delegatorState account

/-- The BTC of a kicked delegator is back, and that of the new one has moved. -/
theorem balance_enters (exact' : config.asset.Exact)
    (outside : ∀ bond ∈ bonds, bond.owner ≠ config.palletAccount)
    (fresh : lookup Bond.owner bonds delegation.owner = none)
    (apart : delegation.owner ≠ config.palletAccount)
    (funded : delegation.amount ≤ start.btc.balance delegation.owner)
    {account : AccountId} (different : account ≠ config.palletAccount) :
    after.btc.balance account + stakeIn (table top' bottom') account =
      start.btc.balance account := by
  obtain ⟨mid, pool, kicks, rfl⟩ := enters.stored
  have before := delegated.balances account different
  have refunded : mid.btc.balance account = stakes.btc.balance account +
      if kicked.map Bond.owner = some account then stakeIn bonds account else 0 := by
    cases kicked with
    | none =>
        cases kicks
        rfl
    | some bond =>
        have member := kicked_mem enters rfl
        rw [(delegated.kick member kicks).2, Ledger.balance_pay exact' (outside bond member).symm,
          if_neg different]
        by_cases isKicked : account = bond.owner
        · rw [if_pos isKicked, isKicked, Option.map_some, if_pos rfl, stakeIn,
            delegated.distinct.lookup_of_mem member]
          rfl
        · rw [if_neg isKicked, Option.map_some, if_neg fun same =>
            isKicked (Option.some.inj same).symm, Nat.add_zero]
  rw [stakeIn, delegated.lookup_enters enters]
  dsimp only
  rw [Ledger.balance_pay exact' apart, refunded, if_neg different]
  by_cases isNew : account = delegation.owner
  · have nothing : stakeIn bonds delegation.owner = 0 := by
      rw [stakeIn, fresh]
      rfl
    rw [isNew, nothing, Nat.add_zero] at before
    rw [if_pos isNew, if_pos isNew, isNew, nothing, ite_self, Nat.add_zero, before,
      Option.map_some, Option.getD_some]
    exact Nat.sub_add_cancel funded
  · rw [if_neg isNew, if_neg isNew]
    split
    next isKicked => exact before
    next notKicked => exact before

theorem escrow_enters (exact' : config.asset.Exact)
    (outside : ∀ bond ∈ bonds, bond.owner ≠ config.palletAccount)
    (apart : delegation.owner ≠ config.palletAccount) :
    after.btc.balance config.palletAccount =
      start.btc.balance config.palletAccount + Delegations.sumAmounts (table top' bottom') := by
  have sum := enters.sum_eq
  have held := delegated.escrow
  rw [table_of] at sum
  obtain ⟨mid, pool, kicks, rfl⟩ := enters.stored
  dsimp only
  rw [Ledger.balance_pay exact' apart, if_neg apart.symm, if_pos rfl]
  cases kicked with
  | none =>
      cases kicks
      simp only [Option.map_none, Option.getD_none] at sum
      omega
  | some bond =>
      have member := kicked_mem enters rfl
      have atMost := Delegations.le_sumAmounts member
      rw [(delegated.kick member kicks).2, Ledger.balance_pay exact' (outside bond member).symm,
        if_pos rfl]
      simp only [Option.map_some, Option.getD_some] at sum
      omega

/-- With a first delegation that enters, the new table is delegated. -/
theorem next (roomy : Roomy config) (exact' : config.asset.Exact)
    (newcomers : ∀ bond ∈ bonds, start.delegatorState.get bond.owner = none)
    (outside : ∀ bond ∈ bonds, bond.owner ≠ config.palletAccount)
    (fresh : lookup Bond.owner bonds delegation.owner = none)
    (apart : delegation.owner ≠ config.palletAccount)
    (funded : delegation.amount ≤ start.btc.balance delegation.owner)
    (pooled : PoolHolds config after.candidatePool (activeTotals after.candidateInfo)) :
    Delegated config start candidate info ahead (table top' bottom') after := by
  have total : bottom'.total = ahead + Delegations.sumAmounts bottom'.delegations := by
    have drifts := enters.drifts
    unfold Drifts bottomOf at drifts
    dsimp only at drifts
    omega
  have sameTerms : SameTerms info info' := enters.same
  obtain ⟨isTop, isBottom, isInfo⟩ := enters.listed.eq_of roomy sameTerms total
  have records := delegated.record_enters enters newcomers
  have escrow := delegated.escrow_enters enters exact' outside apart
  have sum := enters.sum_eq
  have below := enters.kicked_le
  rw [table_of] at sum
  refine
    { listed := ?_, candidateInfo := ?_, topDelegations := ?_, bottomDelegations := ?_
      candidatePool := pooled, total := ?_, delegatorState := records, escrow := escrow
      balances := fun _ different =>
        delegated.balance_enters enters exact' outside fresh apart funded different }
  · rw [← isTop, ← isBottom, ← isInfo]
    exact enters.listed
  all_goals obtain ⟨mid, pool, kicks, rfl⟩ := enters.stored
  · rw [← isInfo, delegated.candidateInfo, StorageMap.insert_insert_self]
  · rw [← isTop, delegated.topDelegations, StorageMap.insert_insert_self]
  · rw [← isBottom, delegated.bottomDelegations, StorageMap.insert_insert_self]
  · have before := delegated.total
    dsimp only
    omega

end Entering

end Delegated

/-! ## Competing calls -/

/-- The signer and the arguments of a `delegate` extrinsic, but for the candidate. -/
structure DelegateCall (AccountId : Type) where
  delegator : AccountId
  amount : Nat
  candidateDelegationCount : Nat
  delegationCount : Nat
  deriving DecidableEq

/-- The delegation that a call asks for. -/
def DelegateCall.bond (call : DelegateCall AccountId) : Bond AccountId where
  owner := call.delegator
  amount := call.amount

/-- Dispatch calls to delegate to a candidate, one after the other. -/
def delegateAll (config : Config AccountId Native) (candidate : AccountId)
    (state : State AccountId Native) (calls : List (DelegateCall AccountId)) :
    State AccountId Native :=
  calls.foldl (fun state call => applyExtrinsic config state (.signed call.delegator)
    (.delegate candidate call.amount call.candidateDelegationCount call.delegationCount)) state

/-- The places in the two lists of a candidate. -/
def places (config : Config AccountId Native) : Nat :=
  config.maxTopDelegationsPerCandidate + config.maxBottomDelegationsPerCandidate

/-- Calls of distinct accounts that are neither delegators nor candidates, with distinct
amounts that they have, and with hints that are enough in every order.  The account of the
pallet does not sign calls. -/
structure Competing (config : Config AccountId Native) (start : Stakes AccountId Native)
    (calls : List (DelegateCall AccountId)) : Prop where
  newcomer : ∀ call ∈ calls, start.delegatorState.get call.delegator = none
  apart : ∀ call ∈ calls, start.candidateInfo.get call.delegator = none
  outside : ∀ call ∈ calls, call.delegator ≠ config.palletAccount
  minimum : ∀ call ∈ calls, config.minDelegation ≤ call.amount
  funded : ∀ call ∈ calls, call.amount ≤ start.btc.balance call.delegator
  hinted : ∀ call ∈ calls,
    min (calls.length - 1) (places config) ≤ call.candidateDelegationCount
  delegators : (calls.map DelegateCall.delegator).Nodup
  amounts : (calls.map DelegateCall.amount).Nodup

/-- After some calls, their best bonds are delegated. -/
structure Contested (config : Config AccountId Native) (start : Stakes AccountId Native)
    (candidate : AccountId) (info : CandidateMetadata) (ahead : Nat)
    (calls : List (DelegateCall AccountId)) (stakes : Stakes AccountId Native) : Prop where
  sound : Sound config stakes
  delegated : ∃ winners, Delegated config start candidate info ahead winners stakes ∧
    Leads Bond.amount (places config) (calls.map DelegateCall.bond) winners

section Contest

variable {start : Stakes AccountId Native} {state : State AccountId Native}
  {candidate : AccountId} {info : CandidateMetadata} {ahead : Nat}
  {top bottom : Delegations AccountId} {calls calls' rest : List (DelegateCall AccountId)}
  {call : DelegateCall AccountId}

omit [LinearOrder AccountId] in
/-- Where the bottom is full, no delegation is below its lowest amount, and there is no
more place. -/
theorem Listed.bottom_full (listed : Listed config info top bottom)
    (isFull : info.bottomCapacity = .full) :
    (table top bottom).length = places config ∧
      ∀ bond ∈ table top bottom, info.lowestBottomDelegationAmount ≤ bond.amount := by
  have capacity := listed.cachedBottom.2.2
  rw [isFull, eq_comm, Delegations.cachedCapacity_eq_full] at capacity
  have bottomLength := le_antisymm listed.tiers.bottomLength capacity.2
  have nonempty : bottom.delegations ≠ [] := by
    rw [ne_eq, ← List.length_eq_zero_iff]
    omega
  refine ⟨?_, fun bond member => ?_⟩
  · rw [table, List.length_append, listed.tiers.full nonempty, bottomLength, places]
  · rw [listed.cachedBottom.1]
    rcases List.mem_append.mp member with inTop | inBottom
    · obtain ⟨low, isLow⟩ := List.exists_mem_of_ne_nil _ nonempty
      exact (Delegations.lowest_le listed.bottomSorted isLow).trans
        (listed.tiers.bottom_le_top inTop isLow)
    · exact Delegations.lowest_le listed.bottomSorted inBottom

omit [LinearOrder AccountId] in
theorem Listed.table_length (listed : Listed config info top bottom) :
    (table top bottom).length ≤ places config := by
  rw [table, List.length_append]
  exact Nat.add_le_add listed.tiers.topLength listed.tiers.bottomLength

theorem stakes_delegate {post : Stakes AccountId Native → Prop} {refused : Prop}
    (ends : (delegateInner config candidate call.delegator call.amount
      call.candidateDelegationCount call.delegationCount).Ends state.stakes
      (fun _ after => post after) fun _ _ => refused) :
    post (delegateAll config candidate state [call]).stakes ∨
      (delegateAll config candidate state [call]).stakes = state.stakes ∧ refused := by
  have chain : (chainCall config (.signed call.delegator)
      (.delegate candidate call.amount call.candidateDelegationCount call.delegationCount)).Ends
      state (fun _ after => post after.stakes) fun _ _ => refused := by
    simp only [chainCall, stakesCall, onStakes, ends_bind, ends_ensureSigned, ends_read, ends_zoom]
    refine ⟨?_, fun noSigner => absurd rfl (noSigner call.delegator)⟩
    rintro who ⟨⟩
    exact ends
  exact chain.transactional.imp_right (And.imp_left (congrArg State.stakes))

section Leading

variable {bonds entries : List (Bond AccountId)} {stakes after : Stakes AccountId Native}
  {delegation : Bond AccountId}
  (delegated : Delegated config start candidate info ahead bonds stakes)
  (leads : Leads Bond.amount (places config) entries bonds)
include delegated leads

/-- A delegation that enters is among the best, and so are the ones that stay. -/
theorem Delegated.leads_enters {kicked : Option (Bond AccountId)} {info' : CandidateMetadata}
    {top' bottom' : Delegations AccountId}
    (enters : Enters config candidate stakes (info.holding config ahead bonds)
      (topOf config bonds) (bottomOf config ahead bonds) delegation kicked info' top' bottom'
      after) :
    Leads Bond.amount (places config) (entries ++ [delegation]) (table top' bottom') := by
  have descending : Descending Bond.amount (table top' bottom') := enters.listed.tiers.descending
  have exchanged := enters.exchanged
  rw [table_of] at exchanged
  cases kicked with
  | none => exact leads.enter descending enters.listed.table_length exchanged
  | some bond =>
      obtain ⟨below, isFull, isLowest⟩ := enters.lowest bond rfl
      obtain ⟨length, least⟩ := delegated.listed.bottom_full isFull
      rw [table_of] at length least
      rw [isLowest] at least
      exact leads.replace descending length exchanged least below

/-- A delegation that full lists refuse is not among the best. -/
theorem Delegated.leads_refuses
    (refuses : (info.holding config ahead bonds).Refuses delegation.amount) :
    Leads Bond.amount (places config) (entries ++ [delegation]) bonds := by
  obtain ⟨_, isFull, atMost⟩ := refuses
  obtain ⟨length, least⟩ := delegated.listed.bottom_full isFull
  rw [table_of] at length least
  exact leads.refuse length fun high leading => atMost.trans (least high leading)

end Leading

section Calling

variable {bonds : List (Bond AccountId)}
  (competing : Competing config start (calls ++ call :: rest))
  (leads : Leads Bond.amount (places config) (calls.map DelegateCall.bond) bonds)
include competing leads

theorem Competing.fresh : lookup Bond.owner bonds call.delegator = none := by
  rw [lookup_eq_none]
  intro bond leading same
  obtain ⟨earlier, isEarlier, rfl⟩ := List.mem_map.mp (leads.subset leading)
  have distinct := competing.delegators
  rw [List.map_append, List.map_cons] at distinct
  refine (List.nodup_append.mp distinct).2.2 earlier.delegator ?_ call.delegator ?_ same
  · exact List.mem_map_of_mem isEarlier
  · exact List.mem_cons_self

omit [LinearOrder AccountId] in
theorem Competing.hint_enough : bonds.length ≤ call.candidateDelegationCount := by
  have atMost := leads.atMost
  have length := leads.length_le
  have hinted := competing.hinted call (by simp)
  simp only [List.length_map, List.length_append, List.length_cons] at length hinted
  omega

end Calling

theorem Contested.next (contested : Contested config start candidate info ahead calls state.stakes)
    (roomy : Roomy config) (minDelegation : 1 ≤ config.minDelegation)
    (ledger : config.asset.IsLedger) (stored : start.candidateInfo.get candidate = some info)
    (active : info.isActive = true) (competing : Competing config start (calls ++ call :: rest)) :
    Contested config start candidate info ahead (calls ++ [call])
      (delegateAll config candidate state [call]).stakes := by
  obtain ⟨sound, winners, delegated, leads⟩ := contested
  have isCall : call ∈ calls ++ call :: rest := by simp
  have ofCall : ∀ {holds : Bond AccountId → Prop},
      (∀ earlier ∈ calls ++ call :: rest, holds earlier.bond) → ∀ bond ∈ winners, holds bond := by
    intro holds all bond leading
    obtain ⟨earlier, isEarlier, rfl⟩ := List.mem_map.mp (leads.subset leading)
    exact all earlier (List.mem_append_left _ isEarlier)
  have positive : ∀ earlier ∈ calls ++ call :: rest, 0 < earlier.amount :=
    fun earlier isEarlier => minDelegation.trans (competing.minimum earlier isEarlier)
  have outside := competing.outside call isCall
  have fresh := competing.fresh leads
  have newcomer : state.stakes.delegatorState.get call.delegator = none := by
    rw [delegated.delegatorState, fresh]
    exact competing.newcomer call isCall
  have different : call.delegator ≠ candidate := by
    rintro rfl
    rw [competing.apart call isCall] at stored
    cases stored
  have apart : state.stakes.candidateInfo.get call.delegator = none := by
    rw [delegated.candidateInfo, StorageMap.get_insert_of_ne _ _ different]
    exact competing.apart call isCall
  have funded := competing.funded call isCall
  have held := delegated.balances call.delegator outside
  rw [stakeIn, fresh] at held
  have settles : (delegateInner config candidate call.delegator call.amount
      call.candidateDelegationCount call.delegationCount).Ends state.stakes
      (fun _ after => Settles config (fun _ => True) (fun _ => True) state.stakes after) _ :=
    ends_delegateInner sound _ _ _ trivial
  have freshTable := fresh
  rw [← table_of config ahead winners] at freshTable
  have enters : (delegateInner config candidate call.delegator call.amount
      call.candidateDelegationCount call.delegationCount).Ends state.stakes _ _ :=
    ends_delegateInner_newcomer sound roomy ledger (competing.minimum call isCall)
      (positive call isCall) delegated.stored active delegated.storedTop delegated.storedBottom
      delegated.listed newcomer
      apart freshTable outside (funded.trans held.symm.le)
      (fun bond inBottom => delegated.kick_cannot_fail ledger (ofCall positive)
        (List.mem_of_mem_drop inBottom)) (competing.hint_enough leads)
  rcases stakes_delegate ((settles.and enters).mono (fun _ _ => id) fun _ _ fails => fails.2) with
    ⟨settled, kicked, info', top', bottom', entered⟩ | ⟨same, refuses⟩
  · refine ⟨sound.settles settled, table top' bottom', ?_, ?_⟩
    · exact delegated.next entered roomy ledger.exact (ofCall competing.newcomer)
        (ofCall competing.outside)
        fresh outside funded settled.2
    · rw [List.map_append]
      exact delegated.leads_enters leads entered
  · rw [same]
    refine ⟨sound, winners, delegated, ?_⟩
    rw [List.map_append]
    exact delegated.leads_refuses leads refuses

/-- All calls, one after the other, leave the best bonds delegated. -/
theorem Contested.run (contested : Contested config start candidate info ahead calls state.stakes)
    (roomy : Roomy config) (minDelegation : 1 ≤ config.minDelegation)
    (ledger : config.asset.IsLedger) (stored : start.candidateInfo.get candidate = some info)
    (active : info.isActive = true) (competing : Competing config start (calls ++ rest)) :
    Contested config start candidate info ahead (calls ++ rest)
      (delegateAll config candidate state rest).stakes := by
  induction rest generalizing calls state with
  | nil =>
      rw [List.append_nil]
      exact contested
  | cons call rest ih =>
      have next := contested.next roomy minDelegation ledger stored active competing
      have regroup : calls ++ call :: rest = calls ++ [call] ++ rest := by simp
      rw [regroup] at competing ⊢
      exact ih next competing

/-! ## The order of the calls -/

/-- What competing calls can change. -/
structure Contention (AccountId : Type) where
  topDelegations : Option (Delegations AccountId)
  bottomDelegations : Option (Delegations AccountId)
  candidateInfo : Option CandidateMetadata
  candidatePool : BoundedOrderedSet (Bond AccountId)
  total : Nat
  delegatorState : StorageMap AccountId (Delegator AccountId)
  balance : AccountId → Nat

def Stakes.contention (stakes : Stakes AccountId Native) (candidate : AccountId) :
    Contention AccountId where
  topDelegations := stakes.topDelegations.get candidate
  bottomDelegations := stakes.bottomDelegations.get candidate
  candidateInfo := stakes.candidateInfo.get candidate
  candidatePool := stakes.candidatePool
  total := stakes.total
  delegatorState := stakes.delegatorState
  balance := stakes.btc.balance

theorem Delegated.contention_eq {bonds : List (Bond AccountId)}
    {stakes other : Stakes AccountId Native}
    (delegated : Delegated config start candidate info ahead bonds stakes)
    (otherDelegated : Delegated config start candidate info ahead bonds other) :
    stakes.contention candidate = other.contention candidate := by
  have samePool : stakes.candidatePool = other.candidatePool := by
    have holds := delegated.candidatePool
    rw [delegated.candidateInfo, ← otherDelegated.candidateInfo] at holds
    exact holds.unique otherDelegated.candidatePool
  have sameRecords : stakes.delegatorState = other.delegatorState := by
    apply StorageMap.ext
    intro account
    rw [delegated.delegatorState, otherDelegated.delegatorState]
  have sameBalance : stakes.btc.balance = other.btc.balance := by
    funext account
    by_cases isPallet : account = config.palletAccount
    · rw [isPallet, delegated.escrow, otherDelegated.escrow]
    · have held := delegated.balances account isPallet
      have otherHeld := otherDelegated.balances account isPallet
      omega
  simp only [Stakes.contention, delegated.storedTop, otherDelegated.storedTop,
    delegated.storedBottom, otherDelegated.storedBottom, delegated.stored, otherDelegated.stored,
    delegated.total, otherDelegated.total, samePool, sameRecords, sameBalance]

omit [LinearOrder AccountId] in
theorem DelegateCall.map_amount (calls : List (DelegateCall AccountId)) :
    (calls.map DelegateCall.bond).map Bond.amount = calls.map DelegateCall.amount := by
  rw [List.map_map]
  rfl

omit [LinearOrder AccountId] in
theorem Competing.perm (competing : Competing config start calls) (perm : calls'.Perm calls) :
    Competing config start calls' where
  newcomer call member := competing.newcomer call (perm.mem_iff.mp member)
  apart call member := competing.apart call (perm.mem_iff.mp member)
  outside call member := competing.outside call (perm.mem_iff.mp member)
  minimum call member := competing.minimum call (perm.mem_iff.mp member)
  funded call member := competing.funded call (perm.mem_iff.mp member)
  hinted call member := by
    rw [perm.length_eq]
    exact competing.hinted call (perm.mem_iff.mp member)
  delegators := (perm.map _).nodup_iff.mpr competing.delegators
  amounts := (perm.map _).nodup_iff.mpr competing.amounts

end Contest

section Order

variable {spec : ChainSpec AccountId Native} {state : State AccountId Native}
  {candidate : AccountId} {info : CandidateMetadata} {calls : List (DelegateCall AccountId)}

/-- The stored total of the bottom list of a candidate. -/
def bottomTotal (stakes : Stakes AccountId Native) (candidate : AccountId) : Nat :=
  ((stakes.bottomDelegations.get candidate).map Delegations.total).getD 0

/-- Competing calls to delegate to an active candidate without delegations lead to the same
lists, metadata, pool, total, records and balances in every order: the greatest amounts are
delegated, as many as there are places. -/
theorem delegateAll_perm (roomy : Roomy config) (minDelegation : 1 ≤ config.minDelegation)
    (ledger : config.asset.IsLedger) (reachable : Reachable config spec state)
    (stored : state.stakes.candidateInfo.get candidate = some info)
    (active : info.isActive = true) (undelegated : info.delegationCount = 0)
    (competing : Competing config state.stakes calls) {calls' : List (DelegateCall AccountId)}
    (perm : calls'.Perm calls) :
    (delegateAll config candidate state calls').stakes.contention candidate =
        (delegateAll config candidate state calls).stakes.contention candidate ∧
      Delegated config state.stakes candidate info (bottomTotal state.stakes candidate)
        (best Bond.amount (places config) (calls.map DelegateCall.bond))
        (delegateAll config candidate state calls).stakes := by
  have sound := reachable.sound
  have agrees := reachable.agrees_of_positive minDelegation
  obtain ⟨_, bottom, _, storedBottom⟩ := sound.exists_lists stored
  have isTotal : bottomTotal state.stakes candidate = bottom.total := by
    rw [bottomTotal, storedBottom]
    rfl
  have initially := Delegated.initially sound agrees roomy stored storedBottom undelegated
  rw [← isTotal] at initially
  have distinct : Distinct Bond.amount (calls.map DelegateCall.bond) := by
    rw [Distinct, DelegateCall.map_amount]
    exact competing.amounts
  have settled : ∀ order : List (DelegateCall AccountId), order.Perm calls →
      Delegated config state.stakes candidate info (bottomTotal state.stakes candidate)
        (best Bond.amount (places config) (calls.map DelegateCall.bond))
        (delegateAll config candidate state order).stakes := by
    intro order perm
    have contested : Contested config state.stakes candidate info
        (bottomTotal state.stakes candidate) [] state.stakes := ⟨sound, [], initially, .nil⟩
    obtain ⟨_, winners, delegated, leads⟩ :=
      contested.run roomy minDelegation ledger stored active (competing.perm perm)
    have samePerm := perm.map DelegateCall.bond
    rw [List.nil_append] at leads
    rw [leads.eq_best (distinct.perm samePerm), best_perm (distinct.perm samePerm) samePerm]
      at delegated
    exact delegated
  have delegated := settled calls (List.Perm.refl calls)
  exact ⟨(settled calls' perm).contention_eq delegated, delegated⟩

end Order

/-- The mock runtime with one place in each of the two lists. -/
def narrowRuntime : Config Nat (Nat → Nat) :=
  { mockRuntime with maxTopDelegationsPerCandidate := 1, maxBottomDelegationsPerCandidate := 1 }

/-- Three calls for two places. -/
def rivals : List (DelegateCall Nat) :=
  [⟨3, 5, 2, 0⟩, ⟨4, 7, 2, 0⟩, ⟨5, 6, 2, 0⟩]

/-- The least of three delegations is kicked, and in the reverse order it is refused. -/
theorem delegateAll_perm_rivals :
    ∃ state info, Reachable narrowRuntime (mockGenesis [1] []) state ∧
      (delegateAll narrowRuntime 1 state rivals.reverse).stakes.contention 1 =
        (delegateAll narrowRuntime 1 state rivals).stakes.contention 1 ∧
      Delegated narrowRuntime state.stakes 1 info (bottomTotal state.stakes 1)
        [⟨4, 7⟩, ⟨5, 6⟩] (delegateAll narrowRuntime 1 state rivals).stakes := by
  obtain ⟨state, reachable, observed⟩ := Reached.exists_of_played
    (show (played narrowRuntime (mockGenesis [1] []) [.nextBlock 0]).map
      (fun state => ((state.stakes.candidateInfo.get 1).map fun info =>
          (info.isActive, info.delegationCount),
        decide (∀ call ∈ rivals, state.stakes.delegatorState.get call.delegator = none ∧
          state.stakes.candidateInfo.get call.delegator = none ∧
          call.amount ≤ state.stakes.btc.balance call.delegator))) =
      some (some (true, 0), true) by decide +kernel)
  simp only [Prod.mk.injEq, Option.map_eq_some_iff, decide_eq_true_eq] at observed
  obtain ⟨⟨info, stored, active, undelegated⟩, free⟩ := observed
  have competing : Competing narrowRuntime state.stakes rivals :=
    { newcomer := fun call member => (free call member).1
      apart := fun call member => (free call member).2.1
      outside := by decide
      minimum := by decide
      funded := fun call member => (free call member).2.2
      hinted := by decide
      delegators := by decide
      amounts := by decide }
  have ledger : narrowRuntime.asset.IsLedger := mock_hasMinimum.isLedger
  exact ⟨state, info, reachable, delegateAll_perm ⟨by decide, by decide⟩ (by decide) ledger
    reachable stored active undelegated competing (List.reverse_perm rivals)⟩

end Popsicle
