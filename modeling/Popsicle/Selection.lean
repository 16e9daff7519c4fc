import Popsicle.Consistency
import Popsicle.Foundation.PartialSort
import Mathlib.Data.Prod.Lex

/-!
# The best-backed candidates

The pallet finds the candidates of a round with the partial sort of the standard library,
which only promises which entries come first.  Whatever it does with the rest, the
selected owners are those of the greatest entries, compared by amount and then by owner.
-/

namespace Popsicle

open Foundation Exec Keyed

variable {AccountId Native : Type} [LinearOrder AccountId]
variable {config : Config AccountId Native} {state : State AccountId Native}

/-- Order by amount, then owner, the greatest first. -/
def candidateOrder (a b : Bond AccountId) : Ordering :=
  ((compare a.amount b.amount).then (compare a.owner b.owner)).swap

/-- A partial sort by a comparator, which is given the index that ends the sorted part. -/
abbrev PartialSort (α : Type) := Nat → (α → α → Ordering) → List α → List α

/-- What is documented of `select_nth_unstable_by`: the entries up to the index are the
least ones. -/
def PartialSort.Arranges {α : Type} (selectNthUnstableBy : PartialSort α)
    (cmp : α → α → Ordering) : Prop :=
  ∀ index entries, index < entries.length →
    PartlySorted (fun first last => cmp first last ≠ .gt) (index + 1) entries
      (selectNthUnstableBy index cmp entries)

/-- `compute_top_candidates` over any partial sort. -/
def computeTopCandidatesBy (selectNthUnstableBy : PartialSort (Bond AccountId))
    (config : Config AccountId Native) : ChainM AccountId Native (List AccountId) := do
  let state ← read
  let topN ← totalSelected config state.groups
  if topN = 0 then return []
  let candidates := state.stakes.candidatePool.entries
  if candidates.length > topN then
    let sortedCandidates := selectNthUnstableBy (topN - 1) candidateOrder candidates
    let sequencers := (sortedCandidates.take topN).map Bond.owner
    return sequencers.insertionSort (· ≤ ·)
  else return candidates.map Bond.owner

/-- Sorting everything is a partial sort. -/
def sortAll : PartialSort (Bond AccountId) := fun _ _ entries =>
  entries.insertionSort fun left right => selectsBefore left right

theorem computeTopCandidatesBy_sortAll :
    computeTopCandidatesBy sortAll config = computeTopCandidates config := rfl

/-- What candidates are compared by. -/
def Bond.standing (bond : Bond AccountId) : Nat ×ₗ AccountId := toLex (bond.amount, bond.owner)

/-- The owners of the `count` greatest entries of a pool, in ascending order. -/
structure TopCandidates (count : Nat) (pool : List (Bond AccountId))
    (selected : List AccountId) : Prop where
  ascending : selected.Pairwise (· < ·)
  members : selected ⊆ pool.map Bond.owner
  length : selected.length = min count pool.length
  above : ∀ high ∈ pool, ∀ low ∈ pool, high.owner ∈ selected → low.owner ∉ selected →
    low.standing < high.standing

variable {count : Nat} {pool : List (Bond AccountId)} {selected others : List AccountId}

/-- Two selections are comparable: what only one of them has is above what only the other
has. -/
theorem TopCandidates.subset_or_subset (top : TopCandidates count pool selected)
    (other : TopCandidates count pool others) : selected ⊆ others ∨ others ⊆ selected := by
  by_contra incomparable
  push Not at incomparable
  obtain ⟨missesSome, missesOther⟩ := incomparable
  simp only [List.subset_def, not_forall] at missesSome missesOther
  obtain ⟨_, inSelected, notOthers⟩ := missesSome
  obtain ⟨_, inOthers, notSelected⟩ := missesOther
  obtain ⟨high, highInPool, rfl⟩ := List.mem_map.mp (top.members inSelected)
  obtain ⟨low, lowInPool, rfl⟩ := List.mem_map.mp (other.members inOthers)
  have above := top.above high highInPool low lowInPool inSelected notSelected
  have below := other.above low lowInPool high highInPool inOthers notOthers
  exact lt_asymm above below

theorem TopCandidates.eq_of_subset (top : TopCandidates count pool selected)
    (other : TopCandidates count pool others) (subset : selected ⊆ others) :
    selected = others := by
  have nodup : selected.Nodup := top.ascending.imp ne_of_lt
  have perm : selected.Perm others := by
    apply (List.subperm_of_subset nodup subset).perm_of_length_le
    rw [top.length, other.length]
  exact perm.eq_of_pairwise' (top.ascending.imp le_of_lt) (other.ascending.imp le_of_lt)

theorem TopCandidates.unique (top : TopCandidates count pool selected)
    (other : TopCandidates count pool others) : selected = others := by
  rcases top.subset_or_subset other with subset | subset
  · exact top.eq_of_subset other subset
  · exact (other.eq_of_subset top subset).symm

theorem candidateOrder_ne_gt {first last : Bond AccountId} :
    candidateOrder first last ≠ .gt ↔ last.standing ≤ first.standing := by
  rw [Bond.standing, Bond.standing, Prod.Lex.toLex_le_toLex, candidateOrder, Ne,
    Ordering.swap_eq_gt, Ordering.then_eq_lt, compare_lt_iff_lt, compare_lt_iff_lt,
    compare_eq_iff_eq]
  constructor
  · intro notBelow
    rcases lt_trichotomy last.amount first.amount with less | equal | greater
    · exact .inl less
    · refine .inr ⟨equal, not_lt.mp fun lower => notBelow (.inr ⟨equal.symm, lower⟩)⟩
    · exact absurd (.inl greater) notBelow
  · rintro (less | ⟨equal, lower⟩) (below | ⟨same, above⟩)
    · exact lt_asymm less below
    · exact less.ne same.symm
    · exact below.ne equal.symm
    · exact absurd above (not_lt.mpr lower)

theorem selectsBefore_iff {first last : Bond AccountId} :
    selectsBefore first last = true ↔ last.standing ≤ first.standing := by
  rw [Bond.standing, Bond.standing, Prod.Lex.toLex_le_toLex, selectsBefore, decide_eq_true_eq]

/-- The owners of the first `count` entries of a partly sorted pool are the best-backed. -/
theorem topCandidates_of_partlySorted (sorted : pool.Pairwise (·.owner < ·.owner))
    {arranged : List (Bond AccountId)}
    (partlySorted : PartlySorted (fun first last => last.standing ≤ first.standing) count pool
      arranged) :
    TopCandidates count pool (((arranged.take count).map Bond.owner).insertionSort (· ≤ ·)) := by
  have distinct : (pool.map Bond.owner).Nodup :=
    List.pairwise_map.mpr (sorted.imp ne_of_lt)
  have front : ((arranged.take count).map Bond.owner).Nodup := by
    apply List.Nodup.sublist ((List.take_sublist _ _).map Bond.owner)
    exact ((partlySorted.perm.map Bond.owner).nodup_iff).mpr distinct
  have inFront : ∀ entry ∈ pool, entry.owner ∈ (arranged.take count).map Bond.owner →
      entry ∈ arranged.take count := by
    intro entry inPool selected
    obtain ⟨other, isFirst, sameOwner⟩ := List.mem_map.mp selected
    have otherInPool := partlySorted.perm.subset (List.mem_of_mem_take isFirst)
    rwa [← List.inj_on_of_nodup_map distinct otherInPool inPool sameOwner]
  constructor
  case ascending =>
    have perm := List.perm_insertionSort (· ≤ ·) ((arranged.take count).map Bond.owner)
    have weakly := List.pairwise_insertionSort (· ≤ ·) ((arranged.take count).map Bond.owner)
    exact (weakly.and (perm.nodup_iff.mpr front)).imp fun ⟨le, ne⟩ => lt_of_le_of_ne le ne
  case members =>
    intro owner selected
    rw [List.mem_insertionSort] at selected
    have taken := ((List.take_sublist count arranged).map Bond.owner).subset selected
    exact (partlySorted.perm.map Bond.owner).subset taken
  case length =>
    rw [List.length_insertionSort, List.length_map, partlySorted.take_length]
  case above =>
    intro high highInPool low lowInPool selected notSelected
    rw [List.mem_insertionSort] at selected notSelected
    have isFirst := inFront high highInPool selected
    have notFirst : low ∉ arranged.take count := fun first =>
      notSelected (List.mem_map_of_mem first)
    have below := partlySorted.before_of_notMem isFirst lowInPool notFirst
    refine lt_of_le_of_ne below fun same => notFirst ?_
    have sameEntry : low = high := by
      simp only [Bond.standing, toLex_inj, Prod.mk.injEq] at same
      exact List.inj_on_of_nodup_map distinct lowInPool highInPool same.2
    rwa [sameEntry]

theorem topCandidates_of_length_le (sorted : pool.Pairwise (·.owner < ·.owner))
    (short : pool.length ≤ count) : TopCandidates count pool (pool.map Bond.owner) where
  ascending := List.pairwise_map.mpr sorted
  members := List.Subset.refl _
  length := by rw [List.length_map, Nat.min_eq_right short]
  above := fun _ _ _ inPool _ notSelected =>
    absurd (List.mem_map_of_mem inPool) notSelected

theorem topCandidates_zero : TopCandidates 0 pool [] where
  ascending := List.Pairwise.nil
  members := List.nil_subset _
  length := (Nat.zero_min _).symm
  above := fun _ _ _ _ selected => absurd selected List.not_mem_nil

theorem sortAll_arranges : (sortAll : PartialSort (Bond AccountId)).Arranges candidateOrder := by
  intro index entries _
  apply PartlySorted.of_pairwise (List.perm_insertionSort _ _)
  have total : Std.Total fun left right : Bond AccountId => selectsBefore left right = true :=
    ⟨fun left right => by
      simpa only [selectsBefore_iff] using le_total right.standing left.standing⟩
  have transitive : IsTrans (Bond AccountId) fun left right => selectsBefore left right = true :=
    ⟨fun left middle right upper lower => by
      simp only [selectsBefore_iff] at *
      exact lower.trans upper⟩
  refine (List.pairwise_insertionSort _ entries).imp fun {first last} isBefore => ?_
  rwa [candidateOrder_ne_gt, ← selectsBefore_iff]

theorem topCandidates_by {selectNthUnstableBy : PartialSort (Bond AccountId)}
    (arranges : selectNthUnstableBy.Arranges candidateOrder)
    (sorted : state.stakes.candidatePool.entries.Pairwise (·.owner < ·.owner)) {topN : Nat}
    (total : (totalSelected config state.groups : ChainM AccountId Native Nat) state =
      (.ok topN, state)) :
    (computeTopCandidatesBy selectNthUnstableBy config).Ends state
      (fun sequencers after => after = state ∧
        TopCandidates topN state.stakes.candidatePool.entries sequencers)
      fun _ _ => False := by
  have ends : (totalSelected config state.groups : ChainM AccountId Native Nat).Ends state
      (fun value after => value = topN ∧ after = state) fun _ _ => False := by
    simp [Ends, total]
  simp only [computeTopCandidatesBy, ends_bind, ends_read]
  apply ends.imp
  intro value after same
  rw [same.1, same.2]
  simp only [ends_ite, ends_pure]
  refine ⟨fun isZero => ?_, fun notZero => ⟨fun isLong => ?_, fun isShort => ?_⟩⟩
  · subst isZero
    exact ⟨trivial, topCandidates_zero⟩
  · refine ⟨trivial, topCandidates_of_partlySorted sorted ?_⟩
    have arranged := arranges (topN - 1) state.stakes.candidatePool.entries (by omega)
    rw [Nat.sub_add_cancel (Nat.pos_of_ne_zero notZero)] at arranged
    exact arranged.imp fun first _ last _ => candidateOrder_ne_gt.mp
  · exact ⟨trivial, topCandidates_of_length_le sorted (Nat.le_of_not_lt isShort)⟩

/-- However the partial sort arranges what it moves, the selection is that of the whole
sort, and the only one with the greatest entries. -/
theorem computeTopCandidatesBy_unique {selectNthUnstableBy : PartialSort (Bond AccountId)}
    (arranges : selectNthUnstableBy.Arranges candidateOrder)
    (sorted : state.stakes.candidatePool.entries.Pairwise (·.owner < ·.owner)) {topN : Nat}
    (total : (totalSelected config state.groups : ChainM AccountId Native Nat) state =
      (.ok topN, state)) :
    ∃ sequencers,
      computeTopCandidatesBy selectNthUnstableBy config state = (.ok sequencers, state) ∧
      computeTopCandidates config state = (.ok sequencers, state) ∧
      TopCandidates topN state.stakes.candidatePool.entries sequencers ∧
      ∀ others, TopCandidates topN state.stakes.candidatePool.entries others →
        others = sequencers := by
  obtain ⟨sequencers, _, run, rfl, top⟩ := (topCandidates_by arranges sorted total).exists_ok
  obtain ⟨others, _, sorting, rfl, otherTop⟩ :=
    (topCandidates_by sortAll_arranges sorted total).exists_ok
  rw [computeTopCandidatesBy_sortAll, otherTop.unique top] at sorting
  exact ⟨sequencers, run, sorting, top, fun _ isTop => isTop.unique top⟩

/-- Of two candidates with the same amount, the one with the greater account is selected. -/
theorem computeTopCandidatesBy_unique_tie :
    ∃ state : State Nat (Nat → Nat),
      state.stakes.candidatePool.entries = [⟨1, 5⟩, ⟨2, 5⟩, ⟨3, 6⟩] ∧
      computeTopCandidates mockRuntime state = (.ok [2, 3], state) ∧
      TopCandidates 2 state.stakes.candidatePool.entries [2, 3] := by
  obtain ⟨state, _, observed⟩ := Reached.exists_of_played
    (show (played mockRuntime { mockGenesis [1, 2, 3] [(4, 1, 5), (5, 2, 5), (6, 3, 6)] with
        groupSize := 1, groupNumber := 2 } []).map
      (fun state => (state.stakes.candidatePool.entries, state.groups.groupSize,
        state.groups.groupNumber)) = some ([⟨1, 5⟩, ⟨2, 5⟩, ⟨3, 6⟩], 1, 2) by decide +kernel)
  simp only [Prod.mk.injEq] at observed
  obtain ⟨pool, size, number⟩ := observed
  have total : (totalSelected mockRuntime state.groups : ChainM Nat (Nat → Nat) Nat) state =
      (.ok 2, state) := by
    rw [totalSelected, size, number]
    rfl
  obtain ⟨sequencers, _, run, top, unique⟩ := computeTopCandidatesBy_unique
    sortAll_arranges (by rw [pool]; decide) total
  have expected : TopCandidates 2 state.stakes.candidatePool.entries [2, 3] := by
    rw [pool]
    exact ⟨by decide, by decide, by decide, by decide⟩
  rw [← unique _ expected] at run
  exact ⟨state, pool, run, expected⟩

end Popsicle
