import Popsicle.Listing
import Popsicle.Pool
import Popsicle.Refund

/-!
# Operations on the two lists

What each list operation of `CandidateMetadata` does to storage: it changes the
two lists of one candidate and the pool, and exchanges entries of the table.
-/

namespace Popsicle

open Foundation Exec Keyed

variable {AccountId Native : Type} [LinearOrder AccountId] {config : Config AccountId Native}

/-- Storage after an operation on the lists of one candidate: the lists and the
pool have changed, the pool is in step with the changed metadata, and the lists
satisfy `effect`. -/
def Relisted (config : Config AccountId Native) (candidate : AccountId)
    (before : Stakes AccountId Native) (info : CandidateMetadata)
    (effect : CandidateMetadata → Delegations AccountId → Delegations AccountId → Prop)
    (info' : CandidateMetadata) (after : Stakes AccountId Native) : Prop :=
  ∃ top' bottom' pool, after = { before with
      topDelegations := before.topDelegations.insert candidate top'
      bottomDelegations := before.bottomDelegations.insert candidate bottom'
      candidatePool := pool } ∧
    Pooled config candidate (some info') after ∧ SameTerms info info' ∧
    effect info' top' bottom'

/-- The delegation of `delegator`, if there is one, has the given amount. -/
def Recorded (top bottom : Delegations AccountId) (delegator : AccountId) (amount : Nat) :
    Prop :=
  ∀ bond, lookup Bond.owner (table top bottom) delegator = some bond → bond.amount = amount

/-- Well-kept lists lose the delegation of `delegator`, and stay well kept. -/
def Removes (config : Config AccountId Native) (info : CandidateMetadata)
    (top bottom : Delegations AccountId) (delegator : AccountId)
    (info' : CandidateMetadata) (top' bottom' : Delegations AccountId) : Prop :=
  Listed config info top bottom →
    ∃ bond, lookup Bond.owner (table top bottom) delegator = some bond ∧
      Listed config info' top' bottom' ∧
      Exchanged [bond] [] (table top bottom) (table top' bottom') ∧
      Drifts bottom bottom' 0

/-- Well-kept lists change the delegation of `delegator`, and stay well kept. -/
def Changes (config : Config AccountId Native) (info : CandidateMetadata)
    (top bottom : Delegations AccountId) (delegator : AccountId) (change : Nat → Nat)
    (info' : CandidateMetadata) (top' bottom' : Delegations AccountId) : Prop :=
  Listed config info top bottom →
    ∃ bond, lookup Bond.owner (table top bottom) delegator = some bond ∧
      Listed config info' top' bottom' ∧
      Exchanged [bond] [{ bond with amount := change bond.amount }]
        (table top bottom) (table top' bottom') ∧
      Drifts bottom bottom' (lapse bottom delegator bond.amount (change bond.amount))

/-! ## Where a delegation is -/

namespace Listed

variable {info : CandidateMetadata} {top bottom : Delegations AccountId}
  {delegator : AccountId} {bond : Bond AccountId}

theorem lookup_of_bottom (listed : Listed config info top bottom)
    (found : lookup Bond.owner bottom.delegations delegator = some bond) :
    lookup Bond.owner (table top bottom) delegator = some bond := by
  have distinct := listed.distinct
  rw [distinct.lookup_eq_some]
  exact ⟨List.mem_append_right _ (mem_of_lookup found), key_of_lookup found⟩

omit [LinearOrder AccountId] in
theorem highest_le_lowest (listed : Listed config info top bottom)
    (nonempty : bottom.delegations ≠ []) :
    info.highestBottomDelegationAmount ≤ info.lowestTopDelegationAmount := by
  have length := listed.tiers.full nonempty
  obtain ⟨low, inBottom⟩ := List.exists_mem_of_ne_nil _ nonempty
  have positive := listed.maxTop_pos (List.mem_append_right _ inBottom)
  have topNonempty : top.delegations ≠ [] := by
    intro isNil
    rw [isNil, List.length_nil] at length
    omega
  obtain ⟨init, last, split⟩ :=
    (List.eq_nil_or_concat top.delegations).resolve_left topNonempty
  rw [List.concat_eq_append] at split
  obtain ⟨first, rest, cons⟩ := List.exists_cons_of_ne_nil nonempty
  rw [listed.cachedTop.1, listed.cachedBottom.2.1, Delegations.lowestDelegationAmount_append split,
    Delegations.highestDelegationAmount_cons cons]
  exact listed.tiers.bottom_le_top (by simp [split]) (by simp [cons])

theorem amount_le_highest (listed : Listed config info top bottom)
    (found : lookup Bond.owner bottom.delegations delegator = some bond) :
    bond.amount ≤ info.highestBottomDelegationAmount := by
  rw [listed.cachedBottom.2.1]
  exact Delegations.le_highest listed.bottomSorted (mem_of_lookup found)

theorem lookup_top (listed : Listed config info top bottom)
    (found : lookup Bond.owner (table top bottom) delegator = some bond)
    (geqLowestTop : info.lowestTopDelegationAmount ≤ bond.amount)
    (different : info.lowestTopDelegationAmount ≠ info.highestBottomDelegationAmount) :
    lookup Bond.owner top.delegations delegator = some bond := by
  rcases top_or_bottom found with inTop | ⟨_, inBottom⟩
  · exact inTop
  · have nonempty := List.ne_nil_of_mem (mem_of_lookup inBottom)
    have upper := listed.highest_le_lowest nonempty
    have lower := listed.amount_le_highest inBottom
    exact absurd (le_antisymm (geqLowestTop.trans lower) upper) different

theorem lookup_top_of_room (listed : Listed config info top bottom)
    (found : lookup Bond.owner (table top bottom) delegator = some bond)
    (notFull : info.topCapacity ≠ .full) :
    lookup Bond.owner top.delegations delegator = some bond := by
  rcases top_or_bottom found with inTop | ⟨_, inBottom⟩
  · exact inTop
  · have isNil := listed.bottom_nil notFull
    rw [isNil] at inBottom
    cases inBottom

theorem lookup_bottom (listed : Listed config info top bottom)
    (found : lookup Bond.owner (table top bottom) delegator = some bond)
    (below : ¬info.lowestTopDelegationAmount ≤ bond.amount) :
    lookup Bond.owner bottom.delegations delegator = some bond := by
  rcases top_or_bottom found with inTop | ⟨_, inBottom⟩
  · rw [listed.cachedTop.1] at below
    exact absurd (Delegations.lowest_le listed.topSorted (mem_of_lookup inTop)) below
  · exact inBottom

end Listed

/-! ## The operations -/

section Operations

variable {stakes : Stakes AccountId Native} {candidate delegator : AccountId}
  {info : CandidateMetadata} {top bottom : Delegations AccountId}

theorem ends_rmTopDelegation
    (storedTop : stakes.topDelegations.get candidate = some top)
    (storedBottom : stakes.bottomDelegations.get candidate = some bottom)
    (pooled : Pooled config candidate (some info) stakes) :
    (info.rmTopDelegation config candidate delegator).Ends stakes
      (fun result after => Relisted config candidate stakes info
        (Removes config info top bottom delegator) result.1 after)
      (fun fault after => after = stakes ∧
        (Listed config info top bottom → Roomy config →
          lookup Bond.owner top.delegations delegator = none ∧
            fault = .staking .delegationDNE)) := by
  simp only [CandidateMetadata.rmTopDelegation, CandidateMetadata.readTop,
    CandidateMetadata.readBottom, CandidateMetadata.insertTop, CandidateMetadata.insertBottom,
    ends_bind, ends_read, ends_require, ends_ite, ends_write, ends_pure, storedTop,
    storedBottom, Option.some.injEq, forall_eq', reduceCtorEq, false_implies, and_true]
  refine ⟨fun amount taken => ⟨fun nonempty => ⟨fun first isFirst => ?_, fun noFirst => ?_⟩,
    fun isEmpty => ?_⟩, fun absent => ⟨trivial, fun listed _ => ?_⟩⟩
  · refine Ends.mono (ends_resetTopData pooled) ?_ fun _ _ => False.elim
    rintro info' after ⟨rfl, pool, rfl, pooled'⟩
    refine ⟨_, _, pool, rfl, pooled', ⟨rfl, rfl, rfl⟩, fun listed => ?_⟩
    obtain ⟨bond, found, rfl⟩ := Option.map_eq_some_iff.mp taken
    rw [listed.tiers.topDistinct.lookupLast] at found
    obtain ⟨rest, split⟩ := List.head?_eq_some_iff.mp isFirst
    have inTable : lookup Bond.owner (table top bottom) delegator = some bond := by
      rw [lookup_table, found]
      rfl
    rw [split, List.tail_cons]
    exact ⟨bond, inTable, listed.rmTopRefill found split rfl rfl⟩
  · refine ⟨trivial, fun listed roomy => ?_⟩
    have isNil := List.head?_eq_none_iff.mp noFirst
    rw [listed.cachedBottom.2.2] at nonempty
    exact absurd isNil (Delegations.ne_nil_of_cachedCapacity roomy.2 nonempty)
  · refine Ends.mono (ends_resetTopData pooled) ?_ fun _ _ => False.elim
    rintro info' after ⟨rfl, pool, rfl, pooled'⟩
    refine ⟨_, bottom, pool, by rw [StorageMap.insert_eq_self storedBottom], pooled',
      ⟨rfl, rfl, rfl⟩, fun listed => ?_⟩
    obtain ⟨bond, found, rfl⟩ := Option.map_eq_some_iff.mp taken
    rw [listed.tiers.topDistinct.lookupLast] at found
    have inTable : lookup Bond.owner (table top bottom) delegator = some bond := by
      rw [lookup_table, found]
      rfl
    rw [listed.cachedBottom.2.2, not_not] at isEmpty
    exact ⟨bond, inTable, listed.rmTop found
      (Delegations.eq_nil_of_cachedCapacity listed.tiers.bottomLength isEmpty) rfl⟩
  · rw [Option.map_eq_none_iff, listed.tiers.topDistinct.lookupLast] at absent
    exact absent

theorem ends_rmBottomDelegation
    (storedTop : stakes.topDelegations.get candidate = some top)
    (storedBottom : stakes.bottomDelegations.get candidate = some bottom)
    (pooled : Pooled config candidate (some info) stakes) :
    (info.rmBottomDelegation config candidate delegator).Ends stakes
      (fun result after => Relisted config candidate stakes info
        (Removes config info top bottom delegator) result.1 after)
      (fun _ _ => Listed config info top bottom →
        lookup Bond.owner bottom.delegations delegator = none) := by
  simp only [CandidateMetadata.rmBottomDelegation, CandidateMetadata.readBottom,
    CandidateMetadata.insertBottom, ends_bind, ends_read, ends_require, ends_write, ends_pure,
    storedBottom, Option.some.injEq, forall_eq', reduceCtorEq, false_implies, and_true]
  refine ⟨fun amount taken => ?_, fun absent listed => ?_⟩
  · refine ⟨top, _, stakes.candidatePool, by rw [StorageMap.insert_eq_self storedTop], pooled,
      ⟨rfl, rfl, rfl⟩, fun listed => ?_⟩
    obtain ⟨bond, found, rfl⟩ := Option.map_eq_some_iff.mp taken
    rw [listed.tiers.bottomDistinct.lookupLast] at found
    exact ⟨bond, listed.lookup_of_bottom found, listed.rmBottom found rfl⟩
  · rw [Option.map_eq_none_iff, listed.tiers.bottomDistinct.lookupLast] at absent
    exact absent

omit [LinearOrder AccountId] in
/-- An attempt on the top list that leaves storage alone when it finds nothing is
followed by one on the bottom list. -/
theorem ends_topElseBottom {α : Type} {tryTop tryBottom : StakesM AccountId Native α}
    {post : α → Stakes AccountId Native → Prop}
    {excuse : Fault → Stakes AccountId Native → Prop} {why : Fault → Prop}
    (topEnds : tryTop.Ends stakes post fun fault after => after = stakes ∧ why fault)
    (bottomEnds : why (.staking .delegationDNE) → tryBottom.Ends stakes post excuse)
    (others : ∀ fault, fault ≠ .staking .delegationDNE → why fault → excuse fault stakes) :
    (CandidateMetadata.topElseBottom tryTop tryBottom).Ends stakes post excuse := by
  rw [CandidateMetadata.topElseBottom, ends_handle]
  refine topEnds.mono (fun _ _ => id) ?_
  rintro fault after ⟨rfl, reason⟩
  rw [ends_ite]
  constructor
  · rintro rfl
    exact bottomEnds reason
  · exact fun different => others fault different reason

/-- Removing a delegation of the recorded amount fails only if it does not exist. -/
theorem ends_rmDelegationIfExists {amount : Nat}
    (storedTop : stakes.topDelegations.get candidate = some top)
    (storedBottom : stakes.bottomDelegations.get candidate = some bottom)
    (pooled : Pooled config candidate (some info) stakes) :
    (info.rmDelegationIfExists config candidate delegator amount).Ends stakes
      (fun result after => Relisted config candidate stakes info
        (Removes config info top bottom delegator) result.1 after)
      (fun _ _ => Listed config info top bottom → Roomy config →
        Recorded top bottom delegator amount →
          lookup Bond.owner (table top bottom) delegator = none) := by
  have topEnds : (info.rmTopDelegation config candidate delegator).Ends stakes _ _ :=
    ends_rmTopDelegation storedTop storedBottom pooled
  have bottomEnds : (info.rmBottomDelegation config candidate delegator).Ends stakes _ _ :=
    ends_rmBottomDelegation storedTop storedBottom pooled
  simp only [CandidateMetadata.rmDelegationIfExists, ends_ite]
  refine ⟨fun definitelyTop => ?_, fun _ => ⟨fun maybeTop => ?_, fun below => ?_⟩⟩
  · refine topEnds.mono (fun _ _ => id) ?_
    rintro fault after ⟨_, why⟩ listed roomy recorded
    obtain ⟨notTop, _⟩ := why listed roomy
    by_contra present
    obtain ⟨bond, found⟩ := Option.ne_none_iff_exists'.mp present
    have inTop : lookup Bond.owner top.delegations delegator = some bond := by
      rcases definitelyTop with notFull | ⟨geqLowestTop, different⟩
      · exact listed.lookup_top_of_room found notFull
      · rw [← recorded bond found] at geqLowestTop
        exact listed.lookup_top found geqLowestTop different
    simp [notTop] at inTop
  · refine ends_topElseBottom topEnds (fun notTop => ?_) ?_
    · refine bottomEnds.mono (fun _ _ => id) ?_
      intro _ _ notBottom listed roomy _
      rw [lookup_table, (notTop listed roomy).1, notBottom listed]
      rfl
    · intro fault different why listed roomy _
      exact absurd (why listed roomy).2 different
  · refine bottomEnds.mono (fun _ _ => id) ?_
    intro _ _ notBottom listed _ recorded
    by_contra present
    obtain ⟨bond, found⟩ := Option.ne_none_iff_exists'.mp present
    have lower : ¬info.lowestTopDelegationAmount ≤ bond.amount := by
      rw [recorded bond found]
      tauto
    have inBottom := listed.lookup_bottom found lower
    simp [notBottom listed] at inBottom

/-! ### Increasing -/

theorem ends_increaseTopDelegation {more : Nat}
    (storedTop : stakes.topDelegations.get candidate = some top)
    (storedBottom : stakes.bottomDelegations.get candidate = some bottom)
    (pooled : Pooled config candidate (some info) stakes) :
    (info.increaseTopDelegation config candidate delegator more).Ends stakes
      (fun result after => Relisted config candidate stakes info
        (Changes config info top bottom delegator (· + more)) result.1 after)
      (fun fault after => after = stakes ∧
        (lookup Bond.owner top.delegations delegator = none ∧
          fault = .staking .delegationDNE)) := by
  simp only [CandidateMetadata.increaseTopDelegation, CandidateMetadata.readTop,
    CandidateMetadata.insertTop, ends_bind, ends_read, ends_require, ends_ensure, ends_write,
    ends_pure, storedTop, Option.some.injEq, forall_eq', reduceCtorEq, false_implies, and_true]
  refine ⟨fun present => ?_, fun absent => ⟨trivial, by simpa using absent⟩⟩
  refine Ends.mono (ends_resetTopData pooled) ?_ fun _ _ => False.elim
  rintro info' after ⟨rfl, pool, rfl, pooled'⟩
  refine ⟨_, bottom, pool, by rw [StorageMap.insert_eq_self storedBottom], pooled',
    ⟨rfl, rfl, rfl⟩, fun listed => ?_⟩
  obtain ⟨bond, found⟩ := Option.isSome_iff_exists.mp present
  refine ⟨bond, lookup_of_top bottom found,
    listed.changeTop (· + more) found (fun low member => ?_) rfl ?_⟩
  · exact (listed.tiers.bottom_le_top (mem_of_lookup found) member).trans (Nat.le_add_right _ _)
  · simp only [Delegations.sortGreatestToLeast_total]
    omega

theorem ends_increaseBottomDelegation {amount more : Nat}
    (storedTop : stakes.topDelegations.get candidate = some top)
    (storedBottom : stakes.bottomDelegations.get candidate = some bottom)
    (pooled : Pooled config candidate (some info) stakes) :
    (info.increaseBottomDelegation config candidate delegator amount more).Ends stakes
      (fun result after => Relisted config candidate stakes info
        (fun info' top' bottom' => Recorded top bottom delegator amount →
          Changes config info top bottom delegator (· + more) info' top' bottom')
        result.1 after)
      (fun _ _ => Listed config info top bottom → Roomy config →
        lookup Bond.owner bottom.delegations delegator = none) := by
  simp only [CandidateMetadata.increaseBottomDelegation, CandidateMetadata.readTop,
    CandidateMetadata.readBottom, CandidateMetadata.insertTop, CandidateMetadata.insertBottom,
    ends_bind, ends_read, ends_require, ends_ensure, ends_ite, ends_write, ends_pure, storedTop,
    storedBottom, Option.some.injEq, forall_eq', reduceCtorEq, false_implies, and_true]
  refine ⟨fun above => ⟨fun bond taken => ⟨fun isFull => ⟨?_, fun noTop => ?_⟩, fun notFull => ?_⟩,
    fun absent listed _ => ?_⟩, fun below => ⟨fun present => ?_, fun absent _ _ => ?_⟩⟩
  · rintro ⟨shorter, last⟩ popped
    obtain ⟨split, total⟩ := Delegations.pop_eq_some popped
    refine Ends.mono (ends_resetTopData pooled) ?_ fun _ _ => False.elim
    rintro info' after ⟨rfl, pool, rfl, pooled'⟩
    refine ⟨_, _, pool, rfl, pooled', ⟨rfl, rfl, rfl⟩, fun recorded listed => ?_⟩
    rw [listed.tiers.bottomDistinct.lookupLast] at taken
    have inTable := listed.lookup_of_bottom taken
    have amountEq := recorded bond inTable
    have greater : last.amount ≤ bond.amount + more := by
      rw [listed.cachedTop.1, Delegations.lowestDelegationAmount_append split] at above
      omega
    refine ⟨bond, inTable, listed.promote taken split greater ?_ ?_⟩
    · rw [total]
    · rw [amountEq]
  · intro listed roomy
    have isNil := Delegations.pop_eq_none.mp noTop
    rw [Delegations.capacity_eq_full, isNil, List.length_nil] at isFull
    exact absurd roomy.1 (by omega)
  · refine Ends.mono (ends_resetTopData pooled) ?_ fun _ _ => False.elim
    rintro info' after ⟨rfl, pool, rfl, pooled'⟩
    refine ⟨_, _, pool, rfl, pooled', ⟨rfl, rfl, rfl⟩, fun _ listed => ?_⟩
    rw [listed.tiers.bottomDistinct.lookupLast] at taken
    have short : top.delegations.length < config.maxTopDelegationsPerCandidate := by
      rw [Delegations.capacity_eq_full] at notFull
      omega
    rw [listed.tiers.nil_or_cons_of_room short] at taken
    cases taken
  · rw [listed.tiers.bottomDistinct.lookupLast] at absent
    exact absent
  · refine ⟨top, _, stakes.candidatePool, by rw [StorageMap.insert_eq_self storedTop], pooled,
      ⟨rfl, rfl, rfl⟩, fun recorded listed => ?_⟩
    obtain ⟨bond, found⟩ := Option.isSome_iff_exists.mp present
    have inTable := listed.lookup_of_bottom found
    have amountEq := recorded bond inTable
    refine ⟨bond, inTable, listed.changeBottom (· + more) found (fun high member => ?_) rfl ?_⟩
    · have lowest := Delegations.lowest_le listed.topSorted member
      rw [listed.cachedTop.1] at below
      omega
    · simp only [Delegations.sortGreatestToLeast_total]
      omega
  · simpa using absent

/-- Increasing a delegation of the recorded amount fails only if it does not exist. -/
theorem ends_increaseDelegation {amount more : Nat}
    (storedTop : stakes.topDelegations.get candidate = some top)
    (storedBottom : stakes.bottomDelegations.get candidate = some bottom)
    (pooled : Pooled config candidate (some info) stakes) :
    (info.increaseDelegation config candidate delegator amount more).Ends stakes
      (fun result after => Relisted config candidate stakes info
        (fun info' top' bottom' => Recorded top bottom delegator amount →
          Changes config info top bottom delegator (· + more) info' top' bottom')
        result.1 after)
      (fun _ _ => Listed config info top bottom → Roomy config →
        Recorded top bottom delegator amount →
          lookup Bond.owner (table top bottom) delegator = none) := by
  have topEnds : (info.increaseTopDelegation config candidate delegator more).Ends stakes
      (fun result after => Relisted config candidate stakes info
        (fun info' top' bottom' => Recorded top bottom delegator amount →
          Changes config info top bottom delegator (· + more) info' top' bottom')
        result.1 after) _ :=
    (ends_increaseTopDelegation storedTop storedBottom pooled).imp
      fun _ _ ⟨top', bottom', pool, after, pooled, same, changes⟩ =>
        ⟨top', bottom', pool, after, pooled, same, fun _ => changes⟩
  have bottomEnds :
      (info.increaseBottomDelegation config candidate delegator amount more).Ends stakes _ _ :=
    ends_increaseBottomDelegation storedTop storedBottom pooled
  simp only [CandidateMetadata.increaseDelegation, ends_ite]
  refine ⟨?_, fun _ => ⟨fun maybeTop => ?_, fun below => ?_⟩⟩
  · rintro ⟨geqLowestTop, different⟩
    refine topEnds.mono (fun _ _ => id) ?_
    rintro fault after ⟨_, notTop, _⟩ listed roomy recorded
    by_contra present
    obtain ⟨bond, found⟩ := Option.ne_none_iff_exists'.mp present
    rw [← recorded bond found] at geqLowestTop
    have inTop := listed.lookup_top found geqLowestTop different
    simp [notTop] at inTop
  · refine ends_topElseBottom topEnds ?_ ?_
    · rintro ⟨notTop, _⟩
      refine bottomEnds.mono (fun _ _ => id) ?_
      intro _ _ notBottom listed roomy _
      rw [lookup_table, notTop, notBottom listed roomy]
      rfl
    · rintro fault different ⟨_, same⟩
      exact absurd same different
  · refine bottomEnds.mono (fun _ _ => id) ?_
    intro _ _ notBottom listed roomy recorded
    by_contra present
    obtain ⟨bond, found⟩ := Option.ne_none_iff_exists'.mp present
    have lower : ¬info.lowestTopDelegationAmount ≤ bond.amount := by
      rw [recorded bond found]
      tauto
    have inBottom := listed.lookup_bottom found lower
    simp [notBottom listed roomy] at inBottom

/-! ### Decreasing -/

theorem ends_decreaseTopDelegation {amount less : Nat} (atMost : less ≤ amount)
    (storedTop : stakes.topDelegations.get candidate = some top)
    (storedBottom : stakes.bottomDelegations.get candidate = some bottom)
    (pooled : Pooled config candidate (some info) stakes) :
    (info.decreaseTopDelegation config candidate delegator amount less).Ends stakes
      (fun result after => Relisted config candidate stakes info
        (fun info' top' bottom' => Recorded top bottom delegator amount →
          Changes config info top bottom delegator (· - less) info' top' bottom')
        result.1 after)
      (fun fault after => after = stakes ∧
        (Listed config info top bottom → Roomy config →
          lookup Bond.owner top.delegations delegator = none ∧
            fault = .staking .delegationDNE)) := by
  simp only [CandidateMetadata.decreaseTopDelegation, CandidateMetadata.readTop,
    CandidateMetadata.readBottom, CandidateMetadata.insertTop, CandidateMetadata.insertBottom,
    ends_bind, ends_read, ends_require, ends_ensure, ends_ite, ends_write, ends_pure, storedTop,
    storedBottom, Option.some.injEq, forall_eq', reduceCtorEq, false_implies, and_true]
  refine ⟨fun demotes => ⟨fun bond taken => ⟨fun first isFirst => ?_,
      fun noFirst => ⟨trivial, fun listed roomy => ?_⟩⟩,
      fun absent => ⟨trivial, fun listed _ => ?_⟩⟩,
    fun stays => ⟨fun present => ?_, fun absent => ⟨trivial, fun listed _ => ?_⟩⟩⟩
  · refine Ends.mono (ends_resetTopData pooled) ?_ fun _ _ => False.elim
    rintro info' after ⟨rfl, pool, rfl, pooled'⟩
    refine ⟨_, _, pool, rfl, pooled', ⟨rfl, rfl, rfl⟩, fun recorded listed => ?_⟩
    rw [listed.tiers.topDistinct.lookupLast] at taken
    have inTable := lookup_of_top bottom taken
    have amountEq := recorded bond inTable
    obtain ⟨rest, split⟩ := List.head?_eq_some_iff.mp isFirst
    have smaller : bond.amount - less ≤ first.amount := by
      have belowBottom := demotes.1
      rw [listed.cachedBottom.2.1, Delegations.highestDelegationAmount_cons split] at belowBottom
      omega
    refine ⟨bond, inTable, listed.demote taken split smaller ?_ ?_⟩
    · rw [listed.tiers.topDistinct.select taken]
      simp
    · rw [split, List.tail_cons]
  · have isNil := List.head?_eq_none_iff.mp noFirst
    have nonempty := demotes.2.2
    rw [listed.cachedBottom.2.2] at nonempty
    exact absurd isNil (Delegations.ne_nil_of_cachedCapacity roomy.2 nonempty)
  · rw [listed.tiers.topDistinct.lookupLast] at absent
    exact absent
  · refine Ends.mono (ends_resetTopData pooled) ?_ fun _ _ => False.elim
    rintro info' after ⟨rfl, pool, rfl, pooled'⟩
    refine ⟨_, bottom, pool, by rw [StorageMap.insert_eq_self storedBottom], pooled',
      ⟨rfl, rfl, rfl⟩, fun recorded listed => ?_⟩
    obtain ⟨bond, found⟩ := Option.isSome_iff_exists.mp present
    have inTable := lookup_of_top bottom found
    have amountEq := recorded bond inTable
    have held : bond.amount ≤ top.total := by
      have sum := Delegations.sumAmounts_erase listed.tiers.topDistinct found
      rw [listed.topTotal]
      omega
    refine ⟨bond, inTable, listed.changeTop (· - less) found (fun low member => ?_) rfl ?_⟩
    · have nonempty := List.ne_nil_of_mem member
      have isFull : info.topCapacity = .full := by
        by_contra notFull
        exact nonempty (listed.bottom_nil notFull)
      have notEmpty : info.bottomCapacity ≠ .empty := by
        rw [listed.cachedBottom.2.2]
        exact fun isEmpty => nonempty
          (Delegations.eq_nil_of_cachedCapacity listed.tiers.bottomLength isEmpty)
      have highest := Delegations.le_highest listed.bottomSorted member
      rw [← listed.cachedBottom.2.1] at highest
      have notBelow : ¬amount - less < info.highestBottomDelegationAmount :=
        fun belowBottom => stays ⟨belowBottom, isFull, notEmpty⟩
      omega
    · simp only [Delegations.sortGreatestToLeast_total]
      omega
  · simpa using absent

theorem ends_decreaseBottomDelegation {less : Nat}
    (storedTop : stakes.topDelegations.get candidate = some top)
    (storedBottom : stakes.bottomDelegations.get candidate = some bottom)
    (pooled : Pooled config candidate (some info) stakes) :
    (info.decreaseBottomDelegation config candidate delegator less).Ends stakes
      (fun result after => Relisted config candidate stakes info
        (Changes config info top bottom delegator (· - less)) result.1 after)
      (fun _ _ => lookup Bond.owner bottom.delegations delegator = none) := by
  simp only [CandidateMetadata.decreaseBottomDelegation, CandidateMetadata.readBottom,
    CandidateMetadata.insertBottom, ends_bind, ends_read, ends_require, ends_ensure, ends_write,
    ends_pure, storedBottom, Option.some.injEq, forall_eq', reduceCtorEq, false_implies, and_true]
  refine ⟨fun present => ?_, fun absent => by simpa using absent⟩
  refine ⟨top, _, stakes.candidatePool, by rw [StorageMap.insert_eq_self storedTop], pooled,
    ⟨rfl, rfl, rfl⟩, fun listed => ?_⟩
  obtain ⟨bond, found⟩ := Option.isSome_iff_exists.mp present
  refine ⟨bond, listed.lookup_of_bottom found,
    listed.changeBottom (· - less) found (fun high member => ?_) rfl ?_⟩
  · exact (Nat.sub_le _ _).trans (listed.tiers.bottom_le_top member (mem_of_lookup found))
  · simp only [Delegations.sortGreatestToLeast_total]
    omega

/-- Decreasing a delegation of the recorded amount fails only if it does not exist. -/
theorem ends_decreaseDelegation {amount less : Nat} (atMost : less ≤ amount)
    (storedTop : stakes.topDelegations.get candidate = some top)
    (storedBottom : stakes.bottomDelegations.get candidate = some bottom)
    (pooled : Pooled config candidate (some info) stakes) :
    (info.decreaseDelegation config candidate delegator amount less).Ends stakes
      (fun result after => Relisted config candidate stakes info
        (fun info' top' bottom' => Recorded top bottom delegator amount →
          Changes config info top bottom delegator (· - less) info' top' bottom')
        result.1 after)
      (fun _ _ => Listed config info top bottom → Roomy config →
        Recorded top bottom delegator amount →
          lookup Bond.owner (table top bottom) delegator = none) := by
  have topEnds : (info.decreaseTopDelegation config candidate delegator amount less).Ends
      stakes _ _ := ends_decreaseTopDelegation atMost storedTop storedBottom pooled
  have bottomEnds : (info.decreaseBottomDelegation config candidate delegator less).Ends stakes
      (fun result after => Relisted config candidate stakes info
        (fun info' top' bottom' => Recorded top bottom delegator amount →
          Changes config info top bottom delegator (· - less) info' top' bottom')
        result.1 after) _ :=
    (ends_decreaseBottomDelegation storedTop storedBottom pooled).imp
      fun _ _ ⟨top', bottom', pool, after, pooled, same, changes⟩ =>
        ⟨top', bottom', pool, after, pooled, same, fun _ => changes⟩
  simp only [CandidateMetadata.decreaseDelegation, ends_ite]
  refine ⟨?_, fun _ => ⟨fun maybeTop => ?_, fun below => ?_⟩⟩
  · rintro ⟨geqLowestTop, different⟩
    refine topEnds.mono (fun _ _ => id) ?_
    rintro fault after ⟨_, why⟩ listed roomy recorded
    by_contra present
    obtain ⟨bond, found⟩ := Option.ne_none_iff_exists'.mp present
    rw [← recorded bond found] at geqLowestTop
    have inTop := listed.lookup_top found geqLowestTop different
    simp [(why listed roomy).1] at inTop
  · refine ends_topElseBottom topEnds (fun why => ?_) ?_
    · refine bottomEnds.mono (fun _ _ => id) ?_
      intro _ _ notBottom listed roomy _
      rw [lookup_table, (why listed roomy).1, notBottom]
      rfl
    · intro fault different why listed roomy _
      exact absurd (why listed roomy).2 different
  · refine bottomEnds.mono (fun _ _ => id) ?_
    intro _ _ notBottom listed roomy recorded
    by_contra present
    obtain ⟨bond, found⟩ := Option.ne_none_iff_exists'.mp present
    have lower : ¬info.lowestTopDelegationAmount ≤ bond.amount := by
      rw [recorded bond found]
      tauto
    have inBottom := listed.lookup_bottom found lower
    simp [notBottom] at inBottom

/-! ### Adding -/

/-- Storage after the kicked delegation, if there is one, has been dropped. -/
def Kicks (config : Config AccountId Native) (candidate : AccountId)
    (before : Stakes AccountId Native) :
    Option (Bond AccountId) → Stakes AccountId Native → Prop
  | none, after => after = before
  | some bond, after => ∃ state, before.delegatorState.get bond.owner = some state ∧
      (∀ amount, state.getBondAmount candidate = some amount →
        Refundable config before.btc.balance bond.owner amount) ∧
      after = dropped config candidate bond.owner state
        (state.delegations.entries.length = 1) before

/-- Why a kick can fail. -/
def KickFails (config : Config AccountId Native) (candidate : AccountId)
    (stakes : Stakes AccountId Native) (bond : Bond AccountId) (fault : Fault) : Prop :=
  (stakes.delegatorState.get bond.owner = none ∧ fault = .panic .delegatorStateExists) ∨
    ∃ state amount, stakes.delegatorState.get bond.owner = some state ∧
      state.getBondAmount candidate = some amount ∧
      ¬Refundable config stakes.btc.balance bond.owner amount ∧
      fault = .panic .decreasingLockCannotFail

/-- A kick leaves everything but the state of the delegator, its request and the
BTC alone. -/
theorem Kicks.frame {mid : Stakes AccountId Native} {kicked : Option (Bond AccountId)}
    (kicks : Kicks config candidate stakes kicked mid) :
    mid = { stakes with
      delegatorState := mid.delegatorState
      delegationScheduledRequests := mid.delegationScheduledRequests
      btc := mid.btc } := by
  cases kicked with
  | none =>
      cases kicks
      rfl
  | some bond =>
      obtain ⟨state, _, _, rfl⟩ := kicks
      rfl

theorem Kicks.pooled {mid : Stakes AccountId Native} {kicked : Option (Bond AccountId)}
    (kicks : Kicks config candidate stakes kicked mid)
    (pooled : Pooled config candidate (some info) stakes) :
    Pooled config candidate (some info) mid := by
  rw [kicks.frame]
  exact pooled

variable {delegation : Bond AccountId}

theorem ends_addBottomDelegation {bumpedFromTop : Bool}
    (storedBottom : stakes.bottomDelegations.get candidate = some bottom)
    (consistent : ∀ account state, stakes.delegatorState.get account = some state →
      Delegator.Consistent account state) :
    (info.addBottomDelegation config bumpedFromTop candidate delegation).Ends stakes
      (fun info' after => ∃ kicked mid bottom₁,
        Kicks config candidate stakes kicked mid ∧
        (bottom.delegations.length ≤ config.maxBottomDelegationsPerCandidate →
          Listed.MakesRoom config bottom bottom₁ kicked) ∧
        after = { mid with
          bottomDelegations := mid.bottomDelegations.insert candidate
            (bottom₁.insertSortedGreatestToLeast delegation) } ∧
        info' = { info.resetBottomData config
            (bottom₁.insertSortedGreatestToLeast delegation) with
          delegationCount := info.delegationCount +
            (if kicked.isNone && !bumpedFromTop then 1 else 0) })
      (fun fault _ => Roomy config →
        ∃ kicked ∈ bottom.delegations, KickFails config candidate stakes kicked fault) := by
  simp only [CandidateMetadata.addBottomDelegation, CandidateMetadata.readBottom,
    CandidateMetadata.insertBottom, ends_bind, ends_read, ends_require, ends_ite, ends_write,
    ends_pure, storedBottom, Option.some.injEq, forall_eq', reduceCtorEq, false_implies,
    and_true, ends_kick (consistent _)]
  refine ⟨fun isFull => ⟨?_, fun noBottom roomy => ?_⟩, fun notFull => ?_⟩
  · rintro ⟨shorter, last⟩ popped
    obtain ⟨split, total⟩ := Delegations.pop_eq_some popped
    have member : last ∈ bottom.delegations := by
      rw [split]
      simp
    refine ⟨fun state stored => ⟨fun refundable => ?_, fun amount bonded refused _ => ?_⟩,
      fun missing _ => ⟨last, member, .inl ⟨missing, rfl⟩⟩⟩
    · refine ⟨some last, _, { shorter with total := shorter.total - last.amount },
        ⟨state, stored, refundable, rfl⟩, fun _ => ?_, rfl, rfl⟩
      rw [total]
      exact .kick isFull split
    · exact ⟨last, member, .inr ⟨state, amount, stored, bonded, refused, rfl⟩⟩
  · have isNil := Delegations.pop_eq_none.mp noBottom
    rw [isNil, List.length_nil] at isFull
    exact absurd roomy.2 (by omega)
  · refine ⟨none, stakes, bottom, rfl, fun bound => .room (by omega), rfl, ?_⟩
    cases bumpedFromTop <;> rfl

/-- What adding a delegation does to well-kept lists that do not hold one of the
same owner yet.  A kicked delegation is not greater than the new one. -/
def Adds (config : Config AccountId Native) (info : CandidateMetadata)
    (top bottom : Delegations AccountId) (delegation : Bond AccountId)
    (kicked : Option (Bond AccountId)) (info' : CandidateMetadata)
    (top' bottom' : Delegations AccountId) : Prop :=
  Listed config info top bottom →
    lookup Bond.owner (table top bottom) delegation.owner = none →
      Listed config info' top' bottom' ∧
        Exchanged kicked.toList [delegation] (table top bottom) (table top' bottom') ∧
        Drifts bottom bottom' 0 ∧
        ∀ bond, kicked = some bond → bond.amount ≤ delegation.amount

omit [LinearOrder AccountId] in
/-- The stored lowest bottom amount is that of the kicked delegation. -/
theorem Listed.kicked_amount (listed : Listed config info top bottom)
    {bottom₁ : Delegations AccountId} {kicked : Option (Bond AccountId)}
    (made : Listed.MakesRoom config bottom bottom₁ kicked) :
    (if info.bottomCapacity = .full then some info.lowestBottomDelegationAmount else none) =
      kicked.map Bond.amount := by
  rw [listed.cachedBottom.2.2, listed.cachedBottom.1]
  have positive := (Nat.zero_le _).trans_lt made.short
  rw [Delegations.cachedCapacity_eq positive]
  cases made with
  | room short =>
      rw [if_neg]
      · rfl
      · rw [Delegations.capacity_eq_full]
        omega
  | kick isFull split =>
      rw [if_pos, Delegations.lowestDelegationAmount_append split]
      · rfl
      · rw [Delegations.capacity_eq_full, isFull]

omit [LinearOrder AccountId] in
theorem Listed.kicked_full (listed : Listed config info top bottom)
    {bottom₁ : Delegations AccountId} {bond : Bond AccountId}
    (made : Listed.MakesRoom config bottom bottom₁ (some bond)) :
    info.bottomCapacity = .full ∧ info.lowestBottomDelegationAmount = bond.amount := by
  have amount := listed.kicked_amount made
  split at amount
  next isFull => exact ⟨isFull, by simpa using amount⟩
  next => cases amount

theorem ends_addTopDelegation
    (storedTop : stakes.topDelegations.get candidate = some top)
    (storedBottom : stakes.bottomDelegations.get candidate = some bottom)
    (pooled : Pooled config candidate (some info) stakes)
    (consistent : ∀ account state, stakes.delegatorState.get account = some state →
      Delegator.Consistent account state) :
    (info.addTopDelegation config candidate delegation).Ends stakes
      (fun result after => ∃ kicked mid, Kicks config candidate stakes kicked mid ∧
        Relisted config candidate mid info (fun info' top' bottom' =>
          (info.topCapacity = .full → info.lowestTopDelegationAmount ≤ delegation.amount) →
            Adds config info top bottom delegation kicked info' top' bottom') result.1 after ∧
        (Listed config info top bottom → result.2 = kicked.map Bond.amount ∧
          (info.topCapacity ≠ .full → kicked = none)))
      (fun fault _ => Listed config info top bottom → Roomy config →
        ∃ kicked ∈ bottom.delegations, KickFails config candidate stakes kicked fault) := by
  simp only [CandidateMetadata.addTopDelegation, CandidateMetadata.readTop,
    CandidateMetadata.insertTop, ends_bind, ends_read, ends_require, ends_ite, ends_write,
    ends_pure, storedTop, Option.some.injEq, forall_eq', reduceCtorEq, false_implies, and_true]
  refine ⟨fun isFull => ⟨?_, fun noTop listed roomy => ?_⟩, fun notFull => ?_⟩
  · rintro ⟨shorter, last⟩ popped
    obtain ⟨split, total⟩ := Delegations.pop_eq_some popped
    refine Ends.mono (ends_addBottomDelegation storedBottom consistent) ?_
      fun _ _ fails _ roomy => fails roomy
    rintro info₁ after₁ ⟨kicked, mid, bottom₁, kicks, makes, rfl, rfl⟩
    refine Ends.mono (ends_resetTopData (kicks.pooled pooled)) ?_ fun _ _ => False.elim
    rintro info' after ⟨rfl, pool, rfl, pooled'⟩
    refine ⟨kicked, mid, kicks, ⟨_, _, pool, rfl, ?_, ?_, ?_⟩, fun listed => ⟨?_, ?_⟩⟩
    · split <;> exact pooled'
    · split <;> exact ⟨rfl, rfl, rfl⟩
    · intro greater listed fresh
      have made := makes listed.tiers.bottomLength
      have capacity : info.topCapacity = .full := by
        rw [listed.cachedTop.2.1, Delegations.cachedCapacity_eq_full]
        exact ⟨by rw [← isFull, split]; simp, isFull.ge⟩
      have lastLe := greater capacity
      rw [listed.cachedTop.1, Delegations.lowestDelegationAmount_append split] at lastLe
      rw [listed.kicked_amount made]
      cases kicked with
      | none =>
          refine And.imp_right (And.imp_right fun drifts => ⟨drifts, ?_⟩)
            (listed.addTopBump fresh split isFull lastLe made (by rw [total]) rfl)
          rintro _ ⟨⟩
      | some bond =>
          refine And.imp_right (And.imp_right fun drifts => ⟨drifts, ?_⟩)
            (listed.addTopBump fresh split isFull lastLe made (by rw [total]) rfl)
          rintro _ ⟨⟩
          have lastTop : last ∈ top.delegations := by simp [split]
          exact (listed.tiers.bottom_le_top lastTop made.kicked_mem).trans lastLe
    · exact listed.kicked_amount (makes listed.tiers.bottomLength)
    · intro notCapacity
      refine absurd ?_ notCapacity
      rw [listed.cachedTop.2.1, Delegations.cachedCapacity_eq_full]
      exact ⟨by rw [← isFull, split]; simp, isFull.ge⟩
  · have isNil := Delegations.pop_eq_none.mp noTop
    rw [isNil, List.length_nil] at isFull
    exact absurd roomy.1 (by omega)
  · refine Ends.mono (ends_resetTopData pooled) ?_ fun _ _ => False.elim
    rintro info' after ⟨rfl, pool, rfl, pooled'⟩
    refine ⟨none, stakes, rfl, ⟨top.insertSortedGreatestToLeast delegation, bottom, pool, ?_,
      pooled', ⟨rfl, rfl, rfl⟩, ?_⟩, fun _ => ⟨rfl, fun _ => rfl⟩⟩
    · rw [StorageMap.insert_eq_self storedBottom]
    · intro _ listed fresh
      have room := lt_of_le_of_ne listed.tiers.topLength notFull
      obtain ⟨added, exchanged, drifts⟩ := listed.addTop fresh room rfl
      exact ⟨added, exchanged, drifts, fun _ none => by cases none⟩

theorem ends_addDelegation
    (storedTop : stakes.topDelegations.get candidate = some top)
    (storedBottom : stakes.bottomDelegations.get candidate = some bottom)
    (pooled : Pooled config candidate (some info) stakes)
    (consistent : ∀ account state, stakes.delegatorState.get account = some state →
      Delegator.Consistent account state) :
    (info.addDelegation config candidate delegation).Ends stakes
      (fun result after => ∃ kicked mid, Kicks config candidate stakes kicked mid ∧
        Relisted config candidate mid info (Adds config info top bottom delegation kicked)
          result.1 after ∧
        (Listed config info top bottom → result.2.2 = kicked.map Bond.amount))
      (fun fault _ => Listed config info top bottom → Roomy config →
        (∃ reason, fault = .error reason) ∨
          ∃ kicked ∈ bottom.delegations, KickFails config candidate stakes kicked fault) := by
  have topEnds : (info.addTopDelegation config candidate delegation).Ends stakes _ _ :=
    ends_addTopDelegation storedTop storedBottom pooled consistent
  unfold CandidateMetadata.addDelegation
  split
  next isFull =>
    rw [ends_ite]
    constructor
    · intro greater
      simp only [ends_bind, ends_pure]
      refine topEnds.mono ?_ fun _ _ fails listed roomy => .inr (fails listed roomy)
      rintro ⟨info', less⟩ after ⟨kicked, mid, kicks, ⟨top', bottom', pool, rfl, pooled', same,
        adds⟩, amounts⟩
      exact ⟨kicked, mid, kicks, ⟨top', bottom', pool, rfl, pooled', same,
        adds fun _ => greater.le⟩, fun listed => (amounts listed).1⟩
    · intro notGreater
      have bottomEnds : (info.addBottomDelegation config false candidate delegation).Ends
          stakes _ _ := ends_addBottomDelegation storedBottom consistent
      have rest : (info.bottomCapacity = .full →
          info.lowestBottomDelegationAmount ≤ delegation.amount) → Ends (do
          let self ← info.addBottomDelegation config false candidate delegation
          return (self, DelegatorAdded.addedToBottom,
            if info.bottomCapacity = .full then some info.lowestBottomDelegationAmount else none))
          stakes
          (fun result after => ∃ kicked mid, Kicks config candidate stakes kicked mid ∧
            Relisted config candidate mid info (Adds config info top bottom delegation kicked)
              result.1 after ∧
            (Listed config info top bottom → result.2.2 = kicked.map Bond.amount))
          (fun fault _ => Listed config info top bottom → Roomy config →
            (∃ reason, fault = .error reason) ∨
              ∃ kicked ∈ bottom.delegations,
                KickFails config candidate stakes kicked fault) := by
        intro guarded
        simp only [ends_bind, ends_pure]
        refine bottomEnds.mono ?_ fun _ _ fails _ roomy => .inr (fails roomy)
        rintro info' after ⟨kicked, mid, bottom₁, kicks, makes, rfl, rfl⟩
        have frame := kicks.frame
        have storedMid : mid.topDelegations.get candidate = some top := by
          rw [frame]
          exact storedTop
        refine ⟨kicked, mid, kicks, ⟨top, bottom₁.insertSortedGreatestToLeast delegation,
          mid.candidatePool, ?_, kicks.pooled pooled, ⟨rfl, rfl, rfl⟩, fun listed fresh => ?_⟩,
          fun listed => ?_⟩
        · rw [StorageMap.insert_eq_self storedMid]
        · have made := makes listed.tiers.bottomLength
          have below : ∀ high ∈ top.delegations, delegation.amount ≤ high.amount := by
            intro high member
            have lowest := Delegations.lowest_le listed.topSorted member
            rw [listed.cachedTop.1] at notGreater
            omega
          obtain ⟨added, exchanged, drifts⟩ := listed.addBottom fresh isFull below made rfl
          refine ⟨by simpa using added, exchanged, drifts, fun bond isKicked => ?_⟩
          subst isKicked
          obtain ⟨bottomFull, lowest⟩ := listed.kicked_full made
          rw [← lowest]
          exact guarded bottomFull
        · exact listed.kicked_amount (makes listed.tiers.bottomLength)
      simp only [ends_bind, ends_ite, ends_ensure, ends_pure] at rest ⊢
      exact ⟨fun _ => ⟨fun above => rest fun _ => above.le, fun _ _ _ => .inl ⟨_, rfl⟩⟩,
        fun notFull => rest fun isFull => absurd isFull notFull⟩
  next notFull =>
    simp only [ends_bind, ends_pure]
    refine topEnds.mono ?_ fun _ _ fails listed roomy => .inr (fails listed roomy)
    rintro ⟨info', less⟩ after ⟨kicked, mid, kicks, ⟨top', bottom', pool, rfl, pooled', same,
      adds⟩, amounts⟩
    refine ⟨kicked, mid, kicks, ⟨top', bottom', pool, rfl, pooled', same,
      adds fun isFull => absurd isFull notFull⟩, fun listed => ?_⟩
    rw [(amounts listed).2 notFull]
    rfl

end Operations

end Popsicle
