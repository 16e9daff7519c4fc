import Popsicle.Delegations
import Popsicle.Candidate

/-!
# The two lists of a candidate

`Listed` says that the top and the bottom delegations of a candidate are one
ranked table and that the cached metadata is what one would compute from it.  Each
branch of the list operations exchanges some entries of the table and keeps it.
-/

namespace Popsicle

open Foundation Keyed Ranked

variable {AccountId Native : Type} {config : Config AccountId Native}

/-- All delegations to a candidate. -/
def table (top bottom : Delegations AccountId) : List (Bond AccountId) :=
  top.delegations ++ bottom.delegations

section Table

variable [LinearOrder AccountId] {top bottom : Delegations AccountId} {delegator : AccountId}
  {bond : Bond AccountId}

theorem lookup_table (top bottom : Delegations AccountId) (delegator : AccountId) :
    lookup Bond.owner (table top bottom) delegator =
      (lookup Bond.owner top.delegations delegator).or
        (lookup Bond.owner bottom.delegations delegator) := by
  simp [table, Keyed.lookup]

theorem lookup_of_top (bottom : Delegations AccountId)
    (found : lookup Bond.owner top.delegations delegator = some bond) :
    lookup Bond.owner (table top bottom) delegator = some bond := by
  rw [lookup_table, found]
  rfl

theorem top_or_bottom (found : lookup Bond.owner (table top bottom) delegator = some bond) :
    lookup Bond.owner top.delegations delegator = some bond ∨
      lookup Bond.owner top.delegations delegator = none ∧
        lookup Bond.owner bottom.delegations delegator = some bond := by
  rw [lookup_table] at found
  cases inTop : lookup Bond.owner top.delegations delegator with
  | none => exact .inr ⟨rfl, by simpa [inTop] using found⟩
  | some other => exact .inl (by simpa [inTop] using found)

end Table

/-- The capacity that the metadata caches.  A list that may hold nothing is never
refreshed and counts as empty. -/
def Delegations.cachedCapacity (self : Delegations AccountId) (max : Nat) : CapacityStatus :=
  if max = 0 then .empty else self.capacity max

/-- The metadata of the top list is up to date. -/
def CachedTop (config : Config AccountId Native) (info : CandidateMetadata)
    (top : Delegations AccountId) : Prop :=
  info.lowestTopDelegationAmount = top.lowestDelegationAmount ∧
    info.topCapacity = top.cachedCapacity config.maxTopDelegationsPerCandidate ∧
    info.totalCounted = info.bond + top.total

/-- The metadata of the bottom list is up to date. -/
def CachedBottom (config : Config AccountId Native) (info : CandidateMetadata)
    (bottom : Delegations AccountId) : Prop :=
  info.lowestBottomDelegationAmount = bottom.lowestDelegationAmount ∧
    info.highestBottomDelegationAmount = bottom.highestDelegationAmount ∧
    info.bottomCapacity = bottom.cachedCapacity config.maxBottomDelegationsPerCandidate

/-- The lists of a candidate are one ranked table with up-to-date metadata.  The
stored total of the bottom may lag behind a decrease, so it is only a bound. -/
structure Listed (config : Config AccountId Native) (info : CandidateMetadata)
    (top bottom : Delegations AccountId) : Prop where
  tiers : Tiers Bond.amount Bond.owner config.maxTopDelegationsPerCandidate
    config.maxBottomDelegationsPerCandidate top.delegations bottom.delegations
  topTotal : top.total = Delegations.sumAmounts top.delegations
  bottomTotal : Delegations.sumAmounts bottom.delegations ≤ bottom.total
  cachedTop : CachedTop config info top
  cachedBottom : CachedBottom config info bottom
  delegationCount : info.delegationCount = (table top bottom).length
  noTop : config.maxTopDelegationsPerCandidate = 0 → bottom.delegations = []

/-- The stored total of a list moves up by `drift` against the sum of its delegations. -/
def Drifts (before after : Delegations AccountId) (drift : Nat) : Prop :=
  after.total + Delegations.sumAmounts before.delegations =
    Delegations.sumAmounts after.delegations + before.total + drift

theorem Drifts.refl (bottom : Delegations AccountId) : Drifts bottom bottom 0 := by
  unfold Drifts
  omega

/-- What a change of amount leaves in the stored total of the bottom list: the decrease,
if the delegation is in the bottom. -/
def lapse [LinearOrder AccountId] (bottom : Delegations AccountId) (delegator : AccountId)
    (old new : Nat) : Nat :=
  if (lookup Bond.owner bottom.delegations delegator).isSome then old - new else 0

/-- Both lists may hold a delegation. -/
def Roomy (config : Config AccountId Native) : Prop :=
  1 ≤ config.maxTopDelegationsPerCandidate ∧ 1 ≤ config.maxBottomDelegationsPerCandidate

namespace Delegations

variable {self : Delegations AccountId} {max : Nat}

theorem capacity_eq_full : self.capacity max = .full ↔ max ≤ self.delegations.length := by
  unfold capacity
  split
  next enough => simp [enough]
  next short =>
    have short' : ¬max ≤ self.delegations.length := short
    split <;> simp [short']

theorem cachedCapacity_eq (positive : 0 < max) : self.cachedCapacity max = self.capacity max :=
  if_neg positive.ne'

theorem cachedCapacity_eq_full :
    self.cachedCapacity max = .full ↔ 0 < max ∧ max ≤ self.delegations.length := by
  unfold cachedCapacity
  split
  next isZero => simp [isZero]
  next positive => rw [capacity_eq_full, and_iff_right (Nat.pos_of_ne_zero positive)]

theorem eq_nil_of_cachedCapacity (bound : self.delegations.length ≤ max)
    (isEmpty : self.cachedCapacity max = .empty) : self.delegations = [] := by
  unfold cachedCapacity capacity at isEmpty
  split at isEmpty
  next isZero => exact List.length_eq_zero_iff.mp (by omega)
  next =>
    split at isEmpty
    next => cases isEmpty
    next =>
      split at isEmpty
      next nil => exact List.isEmpty_iff.mp nil
      next => cases isEmpty

theorem ne_nil_of_cachedCapacity (room : 1 ≤ max) (nonempty : self.cachedCapacity max ≠ .empty) :
    self.delegations ≠ [] := by
  intro nil
  apply nonempty
  rw [cachedCapacity_eq room]
  simp [capacity, nil, Nat.not_le.mpr room]

theorem lowestDelegationAmount_append {init : List (Bond AccountId)} {last : Bond AccountId}
    (split : self.delegations = init ++ [last]) :
    self.lowestDelegationAmount = last.amount := by
  simp [lowestDelegationAmount, split]

theorem highestDelegationAmount_cons {first : Bond AccountId} {rest : List (Bond AccountId)}
    (split : self.delegations = first :: rest) :
    self.highestDelegationAmount = first.amount := by
  simp [highestDelegationAmount, split]

theorem lowest_le (descending : Descending Bond.amount self.delegations)
    {bond : Bond AccountId} (member : bond ∈ self.delegations) :
    self.lowestDelegationAmount ≤ bond.amount := by
  obtain ⟨init, last, split⟩ :=
    (List.eq_nil_or_concat self.delegations).resolve_left (List.ne_nil_of_mem member)
  rw [List.concat_eq_append] at split
  rw [lowestDelegationAmount_append split]
  rw [split] at member descending
  rcases List.mem_append.mp member with inInit | isLast
  · exact (List.pairwise_append.mp descending).2.2 bond inInit last (by simp)
  · rw [List.mem_singleton.mp isLast]

/-- No entry of a descending list is above its highest amount. -/
theorem le_highest (descending : Descending Bond.amount self.delegations)
    {bond : Bond AccountId} (member : bond ∈ self.delegations) :
    bond.amount ≤ self.highestDelegationAmount := by
  cases split : self.delegations with
  | nil => simp [split] at member
  | cons first rest =>
      rw [highestDelegationAmount_cons split]
      rw [split] at member descending
      rcases List.mem_cons.mp member with rfl | inRest
      · exact le_refl _
      · exact (List.pairwise_cons.mp descending).1 bond inRest

/-! ### Sums -/

variable {entries : List (Bond AccountId)} {bond : Bond AccountId} {owner : AccountId}

@[simp] theorem sumAmounts_place :
    sumAmounts (place Bond.amount bond entries) = bond.amount + sumAmounts entries := by
  rw [sumAmounts_perm place_perm, sumAmounts_cons]

@[simp] theorem sumAmounts_sort :
    sumAmounts (sort Bond.amount entries) = sumAmounts entries :=
  sumAmounts_perm sort_perm

end Delegations

/-- The metadata with the data of the top list refreshed. -/
def CandidateMetadata.withTop (config : Config AccountId Native) (info : CandidateMetadata)
    (top : Delegations AccountId) : CandidateMetadata :=
  { info with
    lowestTopDelegationAmount := top.lowestDelegationAmount
    topCapacity := top.capacity config.maxTopDelegationsPerCandidate
    totalCounted := info.bond + top.total }

theorem cachedCapacity_default {max : Nat} :
    (Delegations.default : Delegations AccountId).cachedCapacity max = .empty := by
  unfold Delegations.cachedCapacity
  split
  next => rfl
  next positive => simp [Delegations.capacity, Delegations.default, positive]

theorem CachedTop.refreshed {info : CandidateMetadata} {top : Delegations AccountId}
    (positive : 0 < config.maxTopDelegationsPerCandidate)
    (lowest : info.lowestTopDelegationAmount = top.lowestDelegationAmount)
    (capacity : info.topCapacity = top.capacity config.maxTopDelegationsPerCandidate)
    (counted : info.totalCounted = info.bond + top.total) : CachedTop config info top :=
  ⟨lowest, capacity.trans (Delegations.cachedCapacity_eq positive).symm, counted⟩

theorem CachedBottom.refreshed {info : CandidateMetadata} {bottom : Delegations AccountId}
    (positive : 0 < config.maxBottomDelegationsPerCandidate)
    (lowest : info.lowestBottomDelegationAmount = bottom.lowestDelegationAmount)
    (highest : info.highestBottomDelegationAmount = bottom.highestDelegationAmount)
    (capacity : info.bottomCapacity =
      bottom.capacity config.maxBottomDelegationsPerCandidate) :
    CachedBottom config info bottom :=
  ⟨lowest, highest, capacity.trans (Delegations.cachedCapacity_eq positive).symm⟩

theorem listed_new (config : Config AccountId Native) :
    Listed config (CandidateMetadata.new 0) (Delegations.default : Delegations AccountId)
      Delegations.default where
  tiers := Tiers.empty
  topTotal := rfl
  bottomTotal := le_refl _
  cachedTop := ⟨rfl, cachedCapacity_default.symm, rfl⟩
  cachedBottom := ⟨rfl, rfl, cachedCapacity_default.symm⟩
  delegationCount := rfl
  noTop _ := rfl

namespace Listed

open Delegations

variable {info : CandidateMetadata} {top bottom : Delegations AccountId}

section Facts

variable (listed : Listed config info top bottom)
include listed

theorem distinct : Distinct Bond.owner (table top bottom) := listed.tiers.distinct

theorem topSorted : Descending Bond.amount top.delegations := listed.tiers.topDescending

theorem bottomSorted : Descending Bond.amount bottom.delegations :=
  listed.tiers.bottomDescending

theorem maxTop_pos {bond : Bond AccountId} (member : bond ∈ table top bottom) :
    0 < config.maxTopDelegationsPerCandidate := by
  by_contra isZero
  have none : config.maxTopDelegationsPerCandidate = 0 := by omega
  have length := listed.tiers.topLength
  have topNil : top.delegations = [] := List.length_eq_zero_iff.mp (by omega)
  rw [table, topNil, listed.noTop none] at member
  cases member

theorem maxBottom_pos {bond : Bond AccountId} (member : bond ∈ bottom.delegations) :
    0 < config.maxBottomDelegationsPerCandidate :=
  (List.length_pos_of_mem member).trans_le listed.tiers.bottomLength

/-- A full top may hold delegations and has its maximal length. -/
theorem top_length_of_full (isFull : info.topCapacity = .full) :
    0 < config.maxTopDelegationsPerCandidate ∧
      top.delegations.length = config.maxTopDelegationsPerCandidate := by
  rw [listed.cachedTop.2.1, cachedCapacity_eq_full] at isFull
  exact ⟨isFull.1, le_antisymm listed.tiers.topLength isFull.2⟩

theorem bottom_nil (notFull : info.topCapacity ≠ .full) : bottom.delegations = [] := by
  rw [listed.cachedTop.2.1, ne_eq, cachedCapacity_eq_full, not_and, not_le] at notFull
  by_cases none : config.maxTopDelegationsPerCandidate = 0
  · exact listed.noTop none
  · exact listed.tiers.nil_or_cons_of_room (notFull (Nat.pos_of_ne_zero none))

theorem not_bottom [LinearOrder AccountId] {delegator : AccountId} {bond : Bond AccountId}
    (found : lookup Bond.owner top.delegations delegator = some bond) :
    lookup Bond.owner bottom.delegations delegator = none := by
  have disjoint := (List.nodup_append.mp
    (by simpa [Distinct, table] using listed.distinct)).2.2
  rw [lookup_eq_none]
  intro other inBottom same
  refine disjoint delegator ?_ delegator ?_ rfl
  · rw [← key_of_lookup found]
    exact List.mem_map_of_mem (mem_of_lookup found)
  · rw [← same]
    exact List.mem_map_of_mem inBottom

theorem drifts_top [LinearOrder AccountId] {delegator : AccountId} {bond : Bond AccountId}
    (found : lookup Bond.owner top.delegations delegator = some bond) (old new : Nat) :
    Drifts bottom bottom (lapse bottom delegator old new) := by
  rw [lapse, listed.not_bottom found]
  exact Drifts.refl bottom

end Facts

/-! ### Room -/

/-- How the bottom list makes room for one more entry: it has room, or its last
entry is kicked. -/
inductive MakesRoom (config : Config AccountId Native) (bottom : Delegations AccountId) :
    Delegations AccountId → Option (Bond AccountId) → Prop where
  | room (short : bottom.delegations.length < config.maxBottomDelegationsPerCandidate) :
      MakesRoom config bottom bottom none
  | kick {init : List (Bond AccountId)} {last : Bond AccountId}
      (isFull : bottom.delegations.length = config.maxBottomDelegationsPerCandidate)
      (split : bottom.delegations = init ++ [last]) :
      MakesRoom config bottom { delegations := init, total := bottom.total - last.amount }
        (some last)

namespace MakesRoom

variable {bottom₁ : Delegations AccountId} {kicked : Option (Bond AccountId)}

theorem sublist (made : MakesRoom config bottom bottom₁ kicked) :
    bottom₁.delegations.Sublist bottom.delegations := by
  cases made with
  | room => exact List.Sublist.refl _
  | kick _ split =>
      rw [split]
      exact List.sublist_append_left _ _

theorem short (made : MakesRoom config bottom bottom₁ kicked) :
    bottom₁.delegations.length < config.maxBottomDelegationsPerCandidate := by
  cases made with
  | room short => exact short
  | kick isFull split =>
      rw [← isFull, split]
      simp

theorem bottomTotal (made : MakesRoom config bottom bottom₁ kicked)
    (bound : sumAmounts bottom.delegations ≤ bottom.total) :
    sumAmounts bottom₁.delegations ≤ bottom₁.total := by
  cases made with
  | room => exact bound
  | kick _ split =>
      rw [split, sumAmounts_append, sumAmounts_cons, sumAmounts_nil] at bound
      dsimp only
      omega

theorem drifts (made : MakesRoom config bottom bottom₁ kicked)
    (bound : sumAmounts bottom.delegations ≤ bottom.total) : Drifts bottom bottom₁ 0 := by
  unfold Drifts
  cases made with
  | room => omega
  | kick _ split =>
      rw [split, sumAmounts_append, sumAmounts_cons, sumAmounts_nil] at bound ⊢
      dsimp only
      omega

theorem coe_eq (made : MakesRoom config bottom bottom₁ kicked) :
    Multiset.ofList bottom.delegations =
      Multiset.ofList kicked.toList + Multiset.ofList bottom₁.delegations := by
  cases made with
  | room => simp
  | kick _ split =>
      rw [split]
      simp only [Option.toList_some, ← Multiset.coe_add]
      ac_rfl

theorem kicked_mem {bond : Bond AccountId}
    (made : MakesRoom config bottom bottom₁ (some bond)) : bond ∈ bottom.delegations := by
  cases made with
  | kick _ split => simp [split]

end MakesRoom

variable [LinearOrder AccountId] {delegator : AccountId} {bond : Bond AccountId} {more less : Nat}

/-! ### Removing -/

/-- A top delegation is removed and there is no bottom to refill from. -/
theorem rmTop (listed : Listed config info top bottom)
    (found : lookup Bond.owner top.delegations delegator = some bond)
    (noBottom : bottom.delegations = []) {top' : Delegations AccountId}
    (isTop : top' = { delegations := erase Bond.owner top.delegations delegator
                      total := top.total - bond.amount }) :
    Listed config
        { info.withTop config top' with delegationCount := info.delegationCount - 1 }
        top' bottom ∧
      Exchanged [bond] [] (table top bottom) (table top' bottom) ∧ Drifts bottom bottom 0 := by
  have positive := listed.maxTop_pos (List.mem_append_left _ (mem_of_lookup found))
  subst isTop
  have distinct := listed.tiers.topDistinct
  have exchanged : Exchanged [bond] [] (table top bottom)
      (table { delegations := erase Bond.owner top.delegations delegator
               total := top.total - bond.amount } bottom) := by
    refine ⟨Multiset.ofList (erase Bond.owner top.delegations delegator ++ bottom.delegations),
      ?_, ?_⟩
    · simp only [table, ← Multiset.coe_add, distinct.coe_eq_add_erase found]
      ac_rfl
    · simp [table]
  have length := exchanged.length
  have tiers := listed.tiers
  rw [noBottom] at tiers
  refine ⟨⟨?_, ?_, listed.bottomTotal, .refreshed positive rfl rfl rfl, listed.cachedBottom, ?_,
    fun none => absurd none positive.ne'⟩, exchanged, Drifts.refl bottom⟩
  · rw [noBottom]
    exact tiers.leaveTop
  · have sum := sumAmounts_erase distinct found
    dsimp only
    rw [listed.topTotal]
    omega
  · dsimp only
    rw [listed.delegationCount]
    simp only [List.length_singleton, List.length_nil] at length
    omega

/-- A top delegation is removed and the first of the bottom takes its place. -/
theorem rmTopRefill (listed : Listed config info top bottom)
    (found : lookup Bond.owner top.delegations delegator = some bond)
    {first : Bond AccountId} {rest : List (Bond AccountId)}
    (split : bottom.delegations = first :: rest) {top' bottom' : Delegations AccountId}
    (isTop : top' = Delegations.insertSortedGreatestToLeast
      { delegations := erase Bond.owner top.delegations delegator
        total := top.total - bond.amount } first)
    (isBottom : bottom' = { delegations := rest, total := bottom.total - first.amount }) :
    Listed config
        { (info.resetBottomData config bottom').withTop config top' with
          delegationCount := info.delegationCount - 1 } top' bottom' ∧
      Exchanged [bond] [] (table top bottom) (table top' bottom') ∧
      Drifts bottom bottom' 0 := by
  have positive := listed.maxTop_pos (List.mem_append_left _ (mem_of_lookup found))
  have bottomPositive := listed.maxBottom_pos (show first ∈ bottom.delegations by simp [split])
  have distinct := listed.tiers.topDistinct
  have tiers := listed.tiers
  rw [split] at tiers
  have topList : top'.delegations =
      place Bond.amount first (erase Bond.owner top.delegations delegator) := by
    rw [isTop]
    exact insertSortedGreatestToLeast_delegations
      (listed.topSorted.sublist (erase_sublist _ _))
  have topTotal : top'.total = top.total - bond.amount + first.amount := by
    rw [isTop, insertSortedGreatestToLeast_total]
  subst isBottom
  have exchanged : Exchanged [bond] [] (table top bottom)
      (table top' { delegations := rest, total := bottom.total - first.amount }) := by
    refine ⟨Multiset.ofList (erase Bond.owner top.delegations delegator ++ bottom.delegations),
      ?_, ?_⟩
    · simp only [table, ← Multiset.coe_add, distinct.coe_eq_add_erase found]
      ac_rfl
    · have cons : Multiset.ofList bottom.delegations =
          Multiset.ofList [first] + Multiset.ofList rest := by
        rw [split]
        rfl
      simp only [table, topList, ← Multiset.coe_add, coe_place, cons, Multiset.coe_nil, zero_add]
      ac_rfl
  have length := exchanged.length
  refine ⟨⟨?_, ?_, ?_, .refreshed positive rfl rfl rfl,
    .refreshed bottomPositive rfl rfl rfl, ?_, fun none => absurd none positive.ne'⟩, exchanged, ?_⟩
  · rw [topList]
    exact tiers.leaveTopRefill found
  · have sum := sumAmounts_erase distinct found
    rw [topTotal, topList, sumAmounts_place, listed.topTotal]
    omega
  · have bound := listed.bottomTotal
    rw [split, sumAmounts_cons] at bound
    dsimp only
    omega
  · dsimp only
    rw [listed.delegationCount]
    simp only [List.length_singleton, List.length_nil] at length
    omega
  · have bound := listed.bottomTotal
    unfold Drifts
    rw [split, sumAmounts_cons] at bound ⊢
    dsimp only
    omega

theorem rmBottom (listed : Listed config info top bottom)
    (found : lookup Bond.owner bottom.delegations delegator = some bond)
    {bottom' : Delegations AccountId}
    (isBottom : bottom' = { delegations := erase Bond.owner bottom.delegations delegator
                            total := bottom.total - bond.amount }) :
    Listed config { info.resetBottomData config bottom' with
        delegationCount := info.delegationCount - 1 } top bottom' ∧
      Exchanged [bond] [] (table top bottom) (table top bottom') ∧
      Drifts bottom bottom' 0 := by
  have positive := listed.maxTop_pos (List.mem_append_right _ (mem_of_lookup found))
  have bottomPositive := listed.maxBottom_pos (mem_of_lookup found)
  subst isBottom
  have distinct := listed.tiers.bottomDistinct
  have exchanged : Exchanged [bond] [] (table top bottom)
      (table top { delegations := erase Bond.owner bottom.delegations delegator
                   total := bottom.total - bond.amount }) := by
    refine ⟨Multiset.ofList (top.delegations ++ erase Bond.owner bottom.delegations delegator),
      ?_, ?_⟩
    · simp only [table, ← Multiset.coe_add, distinct.coe_eq_add_erase found]
      ac_rfl
    · simp [table]
  have length := exchanged.length
  refine ⟨⟨listed.tiers.leaveBottom, listed.topTotal, ?_, listed.cachedTop,
    .refreshed bottomPositive rfl rfl rfl, ?_, fun none => absurd none positive.ne'⟩, exchanged, ?_⟩
  · have sum := sumAmounts_erase distinct found
    have bound := listed.bottomTotal
    dsimp only
    omega
  · dsimp only [CandidateMetadata.resetBottomData]
    rw [listed.delegationCount]
    simp only [List.length_singleton, List.length_nil] at length
    omega
  · have sum := sumAmounts_erase distinct found
    have bound := listed.bottomTotal
    unfold Drifts
    dsimp only
    omega

/-! ### Changing an amount -/

theorem changeTop (listed : Listed config info top bottom) (change : Nat → Nat)
    (found : lookup Bond.owner top.delegations delegator = some bond)
    (above : ∀ low ∈ bottom.delegations, low.amount ≤ change bond.amount)
    {top' : Delegations AccountId}
    (isTop : top'.delegations = sort Bond.amount
      (adjust Bond.owner top.delegations delegator fun bond =>
        { bond with amount := change bond.amount }))
    (total : top'.total + bond.amount = top.total + change bond.amount) :
    Listed config (info.withTop config top') top' bottom ∧
      Exchanged [bond] [{ bond with amount := change bond.amount }]
        (table top bottom) (table top' bottom) ∧
      Drifts bottom bottom (lapse bottom delegator bond.amount (change bond.amount)) := by
  have positive := listed.maxTop_pos (List.mem_append_left _ (mem_of_lookup found))
  have distinct := listed.tiers.topDistinct
  have exchanged : Exchanged [bond] [{ bond with amount := change bond.amount }]
      (table top bottom) (table top' bottom) := by
    refine ⟨Multiset.ofList (erase Bond.owner top.delegations delegator ++ bottom.delegations),
      ?_, ?_⟩
    · simp only [table, ← Multiset.coe_add, distinct.coe_eq_add_erase found]
      ac_rfl
    · simp only [table, isTop, ← Multiset.coe_add, coe_sort, distinct.coe_adjust
        (fun bond => { bond with amount := change bond.amount })
        (fun _ => rfl) found]
      ac_rfl
  have length := exchanged.length
  refine ⟨⟨?_, ?_, listed.bottomTotal, .refreshed positive rfl rfl rfl, listed.cachedBottom, ?_,
    fun none => absurd none positive.ne'⟩, exchanged, listed.drifts_top found _ _⟩
  · rw [isTop]
    exact listed.tiers.adjustTop
      (fun bond => { bond with amount := change bond.amount })
      (fun _ => rfl) found above
  · have sum := sumAmounts_adjust distinct found change
    rw [isTop, sumAmounts_sort]
    have topTotal := listed.topTotal
    omega
  · dsimp only [CandidateMetadata.withTop]
    rw [listed.delegationCount]
    simpa using length.symm

/-- A bottom delegation changes its amount and stays in the bottom. -/
theorem changeBottom (listed : Listed config info top bottom) (change : Nat → Nat)
    (found : lookup Bond.owner bottom.delegations delegator = some bond)
    (below : ∀ high ∈ top.delegations, change bond.amount ≤ high.amount)
    {bottom' : Delegations AccountId}
    (isBottom : bottom'.delegations = sort Bond.amount
      (adjust Bond.owner bottom.delegations delegator fun bond =>
        { bond with amount := change bond.amount }))
    (total : bottom'.total + bond.amount =
      bottom.total + change bond.amount + (bond.amount - change bond.amount)) :
    Listed config (info.resetBottomData config bottom') top bottom' ∧
      Exchanged [bond] [{ bond with amount := change bond.amount }]
        (table top bottom) (table top bottom') ∧
      Drifts bottom bottom' (lapse bottom delegator bond.amount (change bond.amount)) := by
  have positive := listed.maxTop_pos (List.mem_append_right _ (mem_of_lookup found))
  have bottomPositive := listed.maxBottom_pos (mem_of_lookup found)
  have distinct := listed.tiers.bottomDistinct
  have exchanged : Exchanged [bond] [{ bond with amount := change bond.amount }]
      (table top bottom) (table top bottom') := by
    refine ⟨Multiset.ofList (top.delegations ++ erase Bond.owner bottom.delegations delegator),
      ?_, ?_⟩
    · simp only [table, ← Multiset.coe_add, distinct.coe_eq_add_erase found]
      ac_rfl
    · simp only [table, isBottom, ← Multiset.coe_add, coe_sort, distinct.coe_adjust
        (fun bond => { bond with amount := change bond.amount })
        (fun _ => rfl) found]
      ac_rfl
  have length := exchanged.length
  refine ⟨⟨?_, listed.topTotal, ?_, listed.cachedTop,
    .refreshed bottomPositive rfl rfl rfl, ?_, fun none => absurd none positive.ne'⟩, exchanged, ?_⟩
  · rw [isBottom]
    exact listed.tiers.adjustBottom
      (fun bond => { bond with amount := change bond.amount })
      (fun _ => rfl) found below
  · have sum := sumAmounts_adjust distinct found change
    have bound := listed.bottomTotal
    rw [isBottom, sumAmounts_sort]
    omega
  · dsimp only [CandidateMetadata.resetBottomData]
    rw [listed.delegationCount]
    simpa using length.symm
  · have sum := sumAmounts_adjust distinct found change
    unfold Drifts lapse
    rw [isBottom, sumAmounts_sort, found, Option.isSome_some, if_pos rfl]
    omega

/-- A bottom delegation grows and swaps with the last of the top. -/
theorem promote (listed : Listed config info top bottom)
    (found : lookup Bond.owner bottom.delegations delegator = some bond)
    {init : List (Bond AccountId)} {last : Bond AccountId}
    (split : top.delegations = init ++ [last]) (greater : last.amount ≤ bond.amount + more)
    {top' bottom' : Delegations AccountId}
    (isTop : top' = Delegations.insertSortedGreatestToLeast
      { delegations := init, total := top.total - last.amount }
      { bond with amount := bond.amount + more })
    (isBottom : bottom' = Delegations.insertSortedGreatestToLeast
      { delegations := erase Bond.owner bottom.delegations delegator
        total := bottom.total - bond.amount } last) :
    Listed config ((info.withTop config top').resetBottomData config bottom') top' bottom' ∧
      Exchanged [bond] [{ bond with amount := bond.amount + more }]
        (table top bottom) (table top' bottom') ∧
      Drifts bottom bottom' (lapse bottom delegator bond.amount (bond.amount + more)) := by
  have positive := listed.maxTop_pos (List.mem_append_right _ (mem_of_lookup found))
  have bottomPositive := listed.maxBottom_pos (mem_of_lookup found)
  have distinct := listed.tiers.bottomDistinct
  have topSorted := listed.topSorted
  rw [split] at topSorted
  have topList : top'.delegations =
      place Bond.amount { bond with amount := bond.amount + more } init := by
    rw [isTop]
    exact insertSortedGreatestToLeast_delegations
      (topSorted.sublist (List.sublist_append_left _ _))
  have bottomList : bottom'.delegations =
      place Bond.amount last (erase Bond.owner bottom.delegations delegator) := by
    rw [isBottom]
    exact insertSortedGreatestToLeast_delegations
      (listed.bottomSorted.sublist (erase_sublist _ _))
  have exchanged : Exchanged [bond] [{ bond with amount := bond.amount + more }]
      (table top bottom) (table top' bottom') := by
    refine ⟨Multiset.ofList (init ++ [last] ++
      erase Bond.owner bottom.delegations delegator), ?_, ?_⟩
    · simp only [table, split, ← Multiset.coe_add, distinct.coe_eq_add_erase found]
      ac_rfl
    · simp only [table, topList, bottomList, ← Multiset.coe_add, coe_place]
      ac_rfl
  have length := exchanged.length
  refine ⟨⟨?_, ?_, ?_, .refreshed positive rfl rfl rfl,
    .refreshed bottomPositive rfl rfl rfl, ?_, fun none => absurd none positive.ne'⟩, exchanged, ?_⟩
  · rw [topList, bottomList]
    exact listed.tiers.promote
      (fun bond => { bond with amount := bond.amount + more }) rfl found split greater
  · have topTotal := listed.topTotal
    rw [split, sumAmounts_append, sumAmounts_cons, sumAmounts_nil] at topTotal
    rw [topList, sumAmounts_place, isTop, insertSortedGreatestToLeast_total]
    dsimp only
    omega
  · have sum := sumAmounts_erase distinct found
    have bound := listed.bottomTotal
    rw [bottomList, sumAmounts_place, isBottom, insertSortedGreatestToLeast_total]
    dsimp only
    omega
  · dsimp only [CandidateMetadata.withTop, CandidateMetadata.resetBottomData]
    rw [listed.delegationCount]
    simpa using length.symm
  · have sum := sumAmounts_erase distinct found
    have bound := listed.bottomTotal
    unfold Drifts lapse
    rw [bottomList, sumAmounts_place, isBottom, insertSortedGreatestToLeast_total, found,
      Option.isSome_some, if_pos rfl]
    dsimp only
    omega

/-- A top delegation shrinks and swaps with the first of the bottom. -/
theorem demote (listed : Listed config info top bottom)
    (found : lookup Bond.owner top.delegations delegator = some bond)
    {first : Bond AccountId} {rest : List (Bond AccountId)}
    (split : bottom.delegations = first :: rest) (smaller : bond.amount - less ≤ first.amount)
    {top' bottom' : Delegations AccountId}
    (isTop : top' = Delegations.insertSortedGreatestToLeast
      { delegations := erase Bond.owner top.delegations delegator
        total := top.total - bond.amount } first)
    (isBottom : bottom' = Delegations.insertSortedGreatestToLeast
      { delegations := rest, total := bottom.total - first.amount }
      { bond with amount := bond.amount - less }) :
    Listed config ((info.resetBottomData config bottom').withTop config top') top' bottom' ∧
      Exchanged [bond] [{ bond with amount := bond.amount - less }]
        (table top bottom) (table top' bottom') ∧
      Drifts bottom bottom' (lapse bottom delegator bond.amount (bond.amount - less)) := by
  have positive := listed.maxTop_pos (List.mem_append_left _ (mem_of_lookup found))
  have bottomPositive := listed.maxBottom_pos (show first ∈ bottom.delegations by simp [split])
  have distinct := listed.tiers.topDistinct
  have tiers := listed.tiers
  have bottomSorted := listed.bottomSorted
  rw [split] at tiers bottomSorted
  have topList : top'.delegations =
      place Bond.amount first (erase Bond.owner top.delegations delegator) := by
    rw [isTop]
    exact insertSortedGreatestToLeast_delegations
      (listed.topSorted.sublist (erase_sublist _ _))
  have bottomList : bottom'.delegations =
      place Bond.amount { bond with amount := bond.amount - less } rest := by
    rw [isBottom]
    exact insertSortedGreatestToLeast_delegations
      (bottomSorted.sublist (List.sublist_cons_self _ _))
  have cons : Multiset.ofList bottom.delegations =
      Multiset.ofList [first] + Multiset.ofList rest := by
    rw [split]
    rfl
  have exchanged : Exchanged [bond] [{ bond with amount := bond.amount - less }]
      (table top bottom) (table top' bottom') := by
    refine ⟨Multiset.ofList (erase Bond.owner top.delegations delegator ++ bottom.delegations),
      ?_, ?_⟩
    · simp only [table, ← Multiset.coe_add, distinct.coe_eq_add_erase found]
      ac_rfl
    · simp only [table, topList, bottomList, ← Multiset.coe_add, coe_place, cons]
      ac_rfl
  have length := exchanged.length
  refine ⟨⟨?_, ?_, ?_, .refreshed positive rfl rfl rfl,
    .refreshed bottomPositive rfl rfl rfl, ?_, fun none => absurd none positive.ne'⟩, exchanged, ?_⟩
  · rw [topList, bottomList]
    exact tiers.demote
      (fun bond => { bond with amount := bond.amount - less }) rfl found smaller
  · have sum := sumAmounts_erase distinct found
    have topTotal := listed.topTotal
    rw [topList, sumAmounts_place, isTop, insertSortedGreatestToLeast_total]
    dsimp only
    omega
  · have bound := listed.bottomTotal
    rw [split, sumAmounts_cons] at bound
    rw [bottomList, sumAmounts_place, isBottom, insertSortedGreatestToLeast_total]
    dsimp only
    omega
  · dsimp only [CandidateMetadata.withTop, CandidateMetadata.resetBottomData]
    rw [listed.delegationCount]
    simpa using length.symm
  · have bound := listed.bottomTotal
    unfold Drifts
    rw [lapse, listed.not_bottom found]
    rw [split, sumAmounts_cons] at bound ⊢
    rw [bottomList, sumAmounts_place, isBottom, insertSortedGreatestToLeast_total]
    dsimp only [Option.isSome_none, Bool.false_eq_true]
    rw [if_neg (by simp)]
    omega

/-! ### Adding -/

variable {delegation : Bond AccountId} {bottom₁ : Delegations AccountId}
  {kicked : Option (Bond AccountId)}

theorem addTop (listed : Listed config info top bottom)
    (fresh : lookup Bond.owner (table top bottom) delegation.owner = none)
    (room : top.delegations.length < config.maxTopDelegationsPerCandidate)
    {top' : Delegations AccountId} (isTop : top' = top.insertSortedGreatestToLeast delegation) :
    Listed config { info.withTop config top' with
        delegationCount := info.delegationCount + 1 } top' bottom ∧
      Exchanged [] [delegation] (table top bottom) (table top' bottom) ∧
        Drifts bottom bottom 0 := by
  have positive := (Nat.zero_le _).trans_lt room
  have topList : top'.delegations = place Bond.amount delegation top.delegations := by
    rw [isTop]
    exact insertSortedGreatestToLeast_delegations listed.topSorted
  have exchanged : Exchanged [] [delegation] (table top bottom) (table top' bottom) := by
    refine ⟨Multiset.ofList (top.delegations ++ bottom.delegations), by simp [table], ?_⟩
    simp only [table, topList, ← Multiset.coe_add, coe_place]
    ac_rfl
  have length := exchanged.length
  refine ⟨⟨?_, ?_, listed.bottomTotal, .refreshed positive rfl rfl rfl, listed.cachedBottom, ?_,
    fun none => absurd none positive.ne'⟩, exchanged, Drifts.refl bottom⟩
  · rw [topList]
    exact listed.tiers.enterTop (listed.distinct.cons fresh) room
  · rw [topList, sumAmounts_place, isTop, insertSortedGreatestToLeast_total, listed.topTotal]
    omega
  · dsimp only
    rw [listed.delegationCount]
    simpa using length.symm

/-- A new delegation enters a full top; the last of the top moves to the bottom. -/
theorem addTopBump (listed : Listed config info top bottom)
    (fresh : lookup Bond.owner (table top bottom) delegation.owner = none)
    {init : List (Bond AccountId)} {last : Bond AccountId}
    (split : top.delegations = init ++ [last])
    (isFull : top.delegations.length = config.maxTopDelegationsPerCandidate)
    (greater : last.amount ≤ delegation.amount)
    (made : MakesRoom config bottom bottom₁ kicked) {top' bottom' : Delegations AccountId}
    (isTop : top' = Delegations.insertSortedGreatestToLeast
      { delegations := init, total := top.total - last.amount } delegation)
    (isBottom : bottom' = bottom₁.insertSortedGreatestToLeast last) :
    Listed config { (info.resetBottomData config bottom').withTop config top' with
        delegationCount := info.delegationCount + (if kicked.isNone then 1 else 0) }
        top' bottom' ∧
      Exchanged kicked.toList [delegation] (table top bottom) (table top' bottom') ∧
      Drifts bottom bottom' 0 := by
  have positive := listed.maxTop_pos
    (List.mem_append_left _ (show last ∈ top.delegations by simp [split]))
  have bottomPositive := (Nat.zero_le _).trans_lt made.short
  have topSorted := listed.topSorted
  rw [split] at topSorted
  have topList : top'.delegations = place Bond.amount delegation init := by
    rw [isTop]
    exact insertSortedGreatestToLeast_delegations
      (topSorted.sublist (List.sublist_append_left _ _))
  have bottomList : bottom'.delegations = place Bond.amount last bottom₁.delegations := by
    rw [isBottom]
    exact insertSortedGreatestToLeast_delegations (listed.bottomSorted.sublist made.sublist)
  have exchanged :
      Exchanged kicked.toList [delegation] (table top bottom) (table top' bottom') := by
    refine ⟨Multiset.ofList (top.delegations ++ bottom₁.delegations), ?_, ?_⟩
    · simp only [table, ← Multiset.coe_add, made.coe_eq]
      ac_rfl
    · simp only [table, split, topList, bottomList, ← Multiset.coe_add, coe_place]
      ac_rfl
  have length := exchanged.length
  refine ⟨⟨?_, ?_, ?_, .refreshed positive rfl rfl rfl,
    .refreshed bottomPositive rfl rfl rfl, ?_, fun none => absurd none positive.ne'⟩, exchanged, ?_⟩
  · rw [topList, bottomList]
    exact (listed.tiers.shrinkBottom made.sublist).enterTopBump
      ((listed.distinct.cons fresh).sublist ((made.sublist.append_left _).cons_cons _))
      split isFull greater made.short
  · have topTotal := listed.topTotal
    rw [split, sumAmounts_append, sumAmounts_cons, sumAmounts_nil] at topTotal
    rw [topList, sumAmounts_place, isTop, insertSortedGreatestToLeast_total]
    dsimp only
    omega
  · have bound := made.bottomTotal listed.bottomTotal
    rw [bottomList, sumAmounts_place, isBottom, insertSortedGreatestToLeast_total]
    omega
  · dsimp only
    rw [listed.delegationCount]
    cases kicked <;> simp at length ⊢ <;> omega
  · have bound := made.bottomTotal listed.bottomTotal
    have moved := made.drifts listed.bottomTotal
    unfold Drifts at moved ⊢
    rw [bottomList, sumAmounts_place, isBottom, insertSortedGreatestToLeast_total]
    omega

theorem addBottom (listed : Listed config info top bottom)
    (fresh : lookup Bond.owner (table top bottom) delegation.owner = none)
    (capacity : info.topCapacity = .full)
    (below : ∀ high ∈ top.delegations, delegation.amount ≤ high.amount)
    (made : MakesRoom config bottom bottom₁ kicked) {bottom' : Delegations AccountId}
    (isBottom : bottom' = bottom₁.insertSortedGreatestToLeast delegation) :
    Listed config { info.resetBottomData config bottom' with
        delegationCount := info.delegationCount + (if kicked.isNone then 1 else 0) }
        top bottom' ∧
      Exchanged kicked.toList [delegation] (table top bottom) (table top bottom') ∧
      Drifts bottom bottom' 0 := by
  obtain ⟨positive, isFull⟩ := listed.top_length_of_full capacity
  have bottomPositive := (Nat.zero_le _).trans_lt made.short
  have bottomList : bottom'.delegations = place Bond.amount delegation bottom₁.delegations := by
    rw [isBottom]
    exact insertSortedGreatestToLeast_delegations (listed.bottomSorted.sublist made.sublist)
  have exchanged :
      Exchanged kicked.toList [delegation] (table top bottom) (table top bottom') := by
    refine ⟨Multiset.ofList (top.delegations ++ bottom₁.delegations), ?_, ?_⟩
    · simp only [table, ← Multiset.coe_add, made.coe_eq]
      ac_rfl
    · simp only [table, bottomList, ← Multiset.coe_add, coe_place]
      ac_rfl
  have length := exchanged.length
  refine ⟨⟨?_, listed.topTotal, ?_, listed.cachedTop,
    .refreshed bottomPositive rfl rfl rfl, ?_, fun none => absurd none positive.ne'⟩, exchanged, ?_⟩
  · rw [bottomList]
    exact (listed.tiers.shrinkBottom made.sublist).enterBottom
      ((listed.distinct.cons fresh).sublist ((made.sublist.append_left _).cons_cons _))
      isFull below made.short
  · have bound := made.bottomTotal listed.bottomTotal
    rw [bottomList, sumAmounts_place, isBottom, insertSortedGreatestToLeast_total]
    omega
  · dsimp only
    rw [listed.delegationCount]
    cases kicked <;> simp at length ⊢ <;> omega
  · have bound := made.bottomTotal listed.bottomTotal
    have moved := made.drifts listed.bottomTotal
    unfold Drifts at moved ⊢
    rw [bottomList, sumAmounts_place, isBottom, insertSortedGreatestToLeast_total]
    omega

end Listed

end Popsicle
