import Popsicle.Types
import Popsicle.Foundation.Keyed

/-!
# Ordered sets

`set.rs`: sets backed by a vector that is kept strictly sorted, and the binary
search of the standard library they rest on.  The sets of the pallet hold bonds,
which are compared by owner, so a set of bonds is a table keyed by owner.
-/

namespace Popsicle

open Foundation Keyed

variable {α : Type}

/-- Binary search on a sorted list: the index of a match, or the insertion point. -/
def binarySearchBy (compareTo : α → Ordering) (entries : List α) : Except Nat Nat :=
  let index := entries.findIdx fun entry => compareTo entry ≠ .lt
  match entries[index]? with
  | some entry => if compareTo entry = .eq then .ok index else .error index
  | none => .error index

def binarySearch [Ord α] (value : α) (entries : List α) : Except Nat Nat :=
  binarySearchBy (fun entry => compare entry value) entries

/-- Drop every entry that compares equal to the entry before it. -/
def dedup [Ord α] : List α → List α
  | [] => []
  | entry :: rest =>
      match dedup rest with
      | [] => [entry]
      | next :: others =>
          if compare entry next = .eq then entry :: others else entry :: next :: others

/-- An ordered set backed by a vector. -/
structure OrderedSet (α : Type) where
  entries : List α
  deriving DecidableEq

namespace OrderedSet

variable [Ord α]

def fromSortedSet (entries : List α) : OrderedSet α := ⟨entries⟩

/-- Sort and remove duplicates. -/
def fromVec (entries : List α) : OrderedSet α :=
  fromSortedSet (dedup (entries.insertionSort fun left right => compare left right ≠ .gt))

/-- Insert an element; the flag tells whether insertion happened. -/
def insert (set : OrderedSet α) (value : α) : OrderedSet α × Bool :=
  match binarySearch value set.entries with
  | .ok _ => (set, false)
  | .error location => (⟨set.entries.insertIdx location value⟩, true)

/-- Remove an element; the flag tells whether removal happened. -/
def remove (set : OrderedSet α) (value : α) : OrderedSet α × Bool :=
  match binarySearch value set.entries with
  | .ok location => (⟨set.entries.eraseIdx location⟩, true)
  | .error _ => (set, false)

def contains (set : OrderedSet α) (value : α) : Bool :=
  match binarySearch value set.entries with
  | .ok _ => true
  | .error _ => false

end OrderedSet

/-- An ordered set backed by a vector of bounded length. -/
structure BoundedOrderedSet (α : Type) where
  entries : List α
  deriving DecidableEq

namespace BoundedOrderedSet

variable [Ord α]

def fromSortedSet (entries : List α) : BoundedOrderedSet α := ⟨entries⟩

/-- Sort and remove duplicates. -/
def fromVec (entries : List α) : BoundedOrderedSet α :=
  fromSortedSet (dedup (entries.insertionSort fun left right => compare left right ≠ .gt))

/-- Insert an element unless the set is at capacity; the flag tells whether
insertion happened. -/
def tryInsert (capacity : Nat) (set : BoundedOrderedSet α) (value : α) :
    Option (BoundedOrderedSet α × Bool) :=
  match binarySearch value set.entries with
  | .ok _ => some (set, false)
  | .error location =>
      if set.entries.length < capacity then
        some (⟨set.entries.insertIdx location value⟩, true)
      else none

/-- Remove an element; the flag tells whether removal happened. -/
def remove (set : BoundedOrderedSet α) (value : α) : BoundedOrderedSet α × Bool :=
  match binarySearch value set.entries with
  | .ok location => (⟨set.entries.eraseIdx location⟩, true)
  | .error _ => (set, false)

def contains (set : BoundedOrderedSet α) (value : α) : Bool :=
  match binarySearch value set.entries with
  | .ok _ => true
  | .error _ => false

end BoundedOrderedSet

/-! ## Sets of bonds -/

section Bonds

variable {AccountId : Type} [LinearOrder AccountId]

/-- Strictly sorted by owner. -/
def SortedByOwner (entries : List (Bond AccountId)) : Prop :=
  entries.Pairwise fun left right => left.owner < right.owner

variable {entries : List (Bond AccountId)} {value : Bond AccountId}

theorem compare_bond (left right : Bond AccountId) :
    compare left right = compare left.owner right.owner := rfl

theorem binarySearch_cons (head : Bond AccountId) (rest : List (Bond AccountId)) :
    binarySearch value (head :: rest) =
      if head.owner < value.owner then
        match binarySearch value rest with
        | .ok index => .ok (index + 1)
        | .error index => .error (index + 1)
      else if head.owner = value.owner then .ok 0 else .error 0 := by
  simp only [binarySearch, binarySearchBy, compare_bond, List.findIdx_cons]
  by_cases less : head.owner < value.owner
  · have isLess : compare head.owner value.owner = .lt := compare_lt_iff_lt.mpr less
    simp only [isLess, less, if_true, ne_eq, not_true_eq_false, decide_false, cond_false,
      List.getElem?_cons_succ]
    split
    next => split <;> rfl
    next => rfl
  · have notLess : compare head.owner value.owner ≠ .lt := fun isLess =>
      less (compare_lt_iff_lt.mp isLess)
    simp [notLess, less]

theorem SortedByOwner.distinct (sorted : SortedByOwner entries) :
    Distinct Bond.owner entries :=
  List.Pairwise.map _ (fun _ _ less => less.ne) sorted

theorem SortedByOwner.sublist {smaller : List (Bond AccountId)} (sorted : SortedByOwner entries)
    (sublist : smaller.Sublist entries) : SortedByOwner smaller :=
  List.Pairwise.sublist sublist sorted

theorem sortedByOwner_singleton : SortedByOwner [value] :=
  List.pairwise_singleton _ _

theorem SortedByOwner.eraseIdx_eq_erase (sorted : SortedByOwner entries) {index : Nat}
    (found : binarySearch value entries = .ok index) :
    entries.eraseIdx index = Keyed.erase Bond.owner entries value.owner := by
  induction entries generalizing index with
  | nil => simp [binarySearch, binarySearchBy] at found
  | cons head rest ih =>
      obtain ⟨headLeast, restSorted⟩ := List.pairwise_cons.mp sorted
      rw [binarySearch_cons] at found
      split at found
      next less =>
        cases inRest : binarySearch value rest with
        | error position => simp [inRest] at found
        | ok position =>
            simp only [inRest, Except.ok.injEq] at found
            subst found
            rw [List.eraseIdx_cons_succ, ih restSorted inRest]
            simp [Keyed.erase, less.ne]
      next notLess =>
        split at found
        next equal =>
          cases found
          have kept : Keyed.erase Bond.owner rest value.owner = rest := by
            rw [Keyed.erase_eq_self]
            rw [Keyed.lookup_eq_none]
            intro other member
            exact (equal ▸ headLeast other member).ne'
          rw [List.eraseIdx_cons_zero]
          simpa [Keyed.erase, equal] using kept.symm
        next => cases found

theorem SortedByOwner.lookup_of_search (sorted : SortedByOwner entries) :
    (∃ index, binarySearch value entries = .ok index) ↔
      (lookup Bond.owner entries value.owner).isSome = true := by
  induction entries with
  | nil => simp [binarySearch, binarySearchBy]
  | cons head rest ih =>
      obtain ⟨headLeast, restSorted⟩ := List.pairwise_cons.mp sorted
      rw [binarySearch_cons, lookup_cons]
      split
      next less =>
        rw [if_neg less.ne, ← ih restSorted]
        cases binarySearch value rest <;> simp
      next notLess =>
        by_cases equal : head.owner = value.owner
        · simp [equal]
        · have absent : lookup Bond.owner rest value.owner = none := by
            rw [lookup_eq_none]
            intro other member same
            have above := headLeast other member
            rw [same] at above
            exact notLess above
          simp [equal, absent]

theorem SortedByOwner.insertIdx (sorted : SortedByOwner entries) {index : Nat}
    (missing : binarySearch value entries = .error index) :
    SortedByOwner (entries.insertIdx index value) ∧
      (entries.insertIdx index value).Perm (value :: entries) ∧
      lookup Bond.owner entries value.owner = none := by
  induction entries generalizing index with
  | nil =>
      simp only [binarySearch, binarySearchBy] at missing
      cases missing
      exact ⟨sortedByOwner_singleton, List.Perm.refl _, rfl⟩
  | cons head rest ih =>
      obtain ⟨headLeast, restSorted⟩ := List.pairwise_cons.mp sorted
      rw [binarySearch_cons] at missing
      rw [lookup_cons]
      split at missing
      next less =>
        cases inRest : binarySearch value rest with
        | ok position => simp [inRest] at missing
        | error position =>
            simp only [inRest, Except.error.injEq] at missing
            subst missing
            obtain ⟨insertedSorted, perm, absent⟩ := ih restSorted inRest
            rw [List.insertIdx_succ_cons, if_neg less.ne]
            refine ⟨List.pairwise_cons.mpr ⟨?_, insertedSorted⟩, ?_, absent⟩
            · intro other member
              rcases List.mem_cons.mp (perm.mem_iff.mp member) with rfl | old
              · exact less
              · exact headLeast other old
            · exact (perm.cons head).trans (List.Perm.swap value head rest)
      next notLess =>
        split at missing
        next equal => cases missing
        next different =>
          cases missing
          have above : value.owner < head.owner :=
            lt_of_le_of_ne (not_lt.mp notLess) (Ne.symm different)
          rw [List.insertIdx_zero, if_neg different]
          refine ⟨List.pairwise_cons.mpr ⟨?_, sorted⟩, List.Perm.refl _, ?_⟩
          · intro other member
            rcases List.mem_cons.mp member with rfl | old
            · exact above
            · exact above.trans (headLeast other old)
          · rw [lookup_eq_none]
            intro other member same
            have further := above.trans (headLeast other member)
            exact further.ne' same

theorem SortedByOwner.fromVec (sorted : SortedByOwner entries) :
    OrderedSet.fromVec entries = ⟨entries⟩ := by
  have ordered : entries.Pairwise fun left right => compare left right ≠ .gt :=
    sorted.imp fun less => by
      rw [compare_bond]
      simpa [compare_le_iff_le, compare_gt_iff_gt] using less.le
  have dedupKept : dedup entries = entries := by
    clear ordered
    induction entries with
    | nil => rfl
    | cons head rest ih =>
        obtain ⟨headLeast, restSorted⟩ := List.pairwise_cons.mp sorted
        rw [dedup, ih restSorted]
        cases rest with
        | nil => rfl
        | cons next others =>
            have less := headLeast next (by simp)
            simp [compare_bond, less.ne]
  unfold OrderedSet.fromVec OrderedSet.fromSortedSet
  rw [List.Pairwise.insertionSort_eq ordered, dedupKept]

theorem SortedByOwner.search_of_absent (sorted : SortedByOwner entries)
    (absent : lookup Bond.owner entries value.owner = none) :
    ∃ index, binarySearch value entries = .error index := by
  cases outcome : binarySearch value entries with
  | error index => exact ⟨index, rfl⟩
  | ok index =>
      have present := sorted.lookup_of_search.mp ⟨index, outcome⟩
      simp [absent] at present

theorem OrderedSet.insert_of_absent {set : OrderedSet (Bond AccountId)}
    (sorted : SortedByOwner set.entries)
    (absent : lookup Bond.owner set.entries value.owner = none) :
    ∃ inserted, set.insert value = (⟨inserted⟩, true) ∧ SortedByOwner inserted ∧
      inserted.Perm (value :: set.entries) := by
  obtain ⟨index, outcome⟩ := sorted.search_of_absent absent
  obtain ⟨insertedSorted, perm, _⟩ := sorted.insertIdx outcome
  exact ⟨_, by simp [OrderedSet.insert, outcome], insertedSorted, perm⟩

theorem OrderedSet.insert_of_present {set : OrderedSet (Bond AccountId)}
    (sorted : SortedByOwner set.entries)
    (present : (lookup Bond.owner set.entries value.owner).isSome = true) :
    set.insert value = (set, false) := by
  obtain ⟨index, outcome⟩ := sorted.lookup_of_search.mpr present
  simp [OrderedSet.insert, outcome]

namespace BoundedOrderedSet

variable {set : BoundedOrderedSet (Bond AccountId)} {capacity : Nat}

theorem remove_eq (sorted : SortedByOwner set.entries) :
    set.remove value = (⟨Keyed.erase Bond.owner set.entries value.owner⟩,
      (lookup Bond.owner set.entries value.owner).isSome) := by
  cases outcome : binarySearch value set.entries with
  | ok index =>
      have present := sorted.lookup_of_search.mp ⟨index, outcome⟩
      simp [remove, outcome, present, sorted.eraseIdx_eq_erase outcome]
  | error index =>
      obtain ⟨_, _, absent⟩ := sorted.insertIdx outcome
      simp [remove, outcome, absent, Keyed.erase_eq_self absent]

theorem tryInsert_of_absent (sorted : SortedByOwner set.entries)
    (absent : lookup Bond.owner set.entries value.owner = none)
    (room : set.entries.length < capacity) :
    ∃ inserted, set.tryInsert capacity value = some (⟨inserted⟩, true) ∧
      SortedByOwner inserted ∧ inserted.Perm (value :: set.entries) := by
  obtain ⟨index, outcome⟩ := sorted.search_of_absent absent
  obtain ⟨insertedSorted, perm, _⟩ := sorted.insertIdx outcome
  exact ⟨_, by simp [tryInsert, outcome, room], insertedSorted, perm⟩

theorem tryInsert_cases (sorted : SortedByOwner set.entries)
    {result : BoundedOrderedSet (Bond AccountId) × Bool}
    (inserted : set.tryInsert capacity value = some result) :
    (result = (set, false) ∧ (lookup Bond.owner set.entries value.owner).isSome = true) ∨
      (result.2 = true ∧ lookup Bond.owner set.entries value.owner = none ∧
        SortedByOwner result.1.entries ∧ result.1.entries.Perm (value :: set.entries) ∧
        result.1.entries.length ≤ capacity) := by
  cases outcome : binarySearch value set.entries with
  | ok index =>
      left
      simp only [tryInsert, outcome, Option.some.injEq] at inserted
      exact ⟨inserted.symm, sorted.lookup_of_search.mp ⟨index, outcome⟩⟩
  | error index =>
      right
      obtain ⟨insertedSorted, perm, absent⟩ := sorted.insertIdx outcome
      simp only [tryInsert, outcome] at inserted
      split at inserted
      next room =>
        simp only [Option.some.injEq] at inserted
        subst inserted
        refine ⟨rfl, absent, insertedSorted, perm, ?_⟩
        rw [perm.length_eq]
        exact room
      next => cases inserted

end BoundedOrderedSet

end Bonds

end Popsicle
