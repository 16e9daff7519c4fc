import Popsicle.Candidate
import Popsicle.Foundation.Run
import Popsicle.Foundation.StorageMap

/-!
# Ordered sets as maps

A set of bonds stores one amount for each owner.  Here the sets are compared with a finite map
from owners to amounts, over any sequence of operations.
-/

namespace Popsicle

open Foundation Keyed

variable {AccountId : Type} [LinearOrder AccountId]

/-! ## The map -/

/-- What a set of bonds is for: the amount of each owner. -/
abbrev OwnerMap (AccountId : Type) := StorageMap AccountId Nat

namespace OwnerMap

/-- Whether an owner has an amount. -/
def has (map : OwnerMap AccountId) (owner : AccountId) : Bool := (map.get owner).isSome

/-- Add a bond unless its owner has one; the flag tells whether it was added. -/
def add (map : OwnerMap AccountId) (bond : Bond AccountId) : OwnerMap AccountId × Bool :=
  if map.has bond.owner then (map, false) else (map.insert bond.owner bond.amount, true)

/-- Add bonds in order: the first one of an owner stays. -/
def addAll (map : OwnerMap AccountId) (bonds : List (Bond AccountId)) : OwnerMap AccountId :=
  bonds.foldl (fun map bond => (map.add bond).1) map

/-- Remove the amount of an owner; the flag tells whether there was one. -/
def drop (map : OwnerMap AccountId) (owner : AccountId) : OwnerMap AccountId × Bool :=
  (map.remove owner, map.has owner)

end OwnerMap

/-- A vector that is strictly sorted by owner and stores what a map does. -/
structure Mirrors (entries : List (Bond AccountId)) (map : OwnerMap AccountId) : Prop where
  sorted : SortedByOwner entries
  amounts : ∀ owner, map.get owner = (lookup Bond.owner entries owner).map Bond.amount

variable {entries : List (Bond AccountId)} {map : OwnerMap AccountId} {value : Bond AccountId}

namespace Mirrors

theorem nil : Mirrors ([] : List (Bond AccountId)) StorageMap.empty where
  sorted := List.Pairwise.nil
  amounts _ := rfl

theorem has_eq (mirrors : Mirrors entries map) (owner : AccountId) :
    map.has owner = (lookup Bond.owner entries owner).isSome := by
  rw [OwnerMap.has, mirrors.amounts, Option.isSome_map]

theorem card (mirrors : Mirrors entries map) : map.keys.card = entries.length := by
  have keys : map.keys = (entries.map Bond.owner).toFinset := by
    ext owner
    rw [map.mem_keys, ← OwnerMap.has, mirrors.has_eq, lookup_isSome, List.mem_toFinset]
  rw [keys, List.toFinset_card_of_nodup mirrors.sorted.distinct, List.length_map]

theorem inserted (mirrors : Mirrors entries map) {longer : List (Bond AccountId)}
    (sorted : SortedByOwner longer) (perm : longer.Perm (value :: entries)) :
    Mirrors longer (map.insert value.owner value.amount) where
  sorted := sorted
  amounts owner := by
    have distinct : Distinct Bond.owner (value :: entries) := sorted.distinct.perm perm.symm
    rw [distinct.lookup_perm perm, lookup_cons, StorageMap.get_insert, mirrors.amounts]
    by_cases equal : owner = value.owner
    · simp [equal]
    · simp [equal, Ne.symm equal]

theorem erased (mirrors : Mirrors entries map) (owner : AccountId) :
    Mirrors (Keyed.erase Bond.owner entries owner) (map.remove owner) where
  sorted := mirrors.sorted.sublist (erase_sublist _ _)
  amounts query := by
    rw [lookup_erase, StorageMap.get_remove, mirrors.amounts]
    split <;> rfl

theorem unique {other : List (Bond AccountId)} (mirrors : Mirrors entries map)
    (others : Mirrors other map) : entries = other := by
  have sameLookup : ∀ owner, lookup Bond.owner entries owner = lookup Bond.owner other owner := by
    intro owner
    have sameAmount := (mirrors.amounts owner).symm.trans (others.amounts owner)
    cases left : lookup Bond.owner entries owner with
    | none =>
        rw [left] at sameAmount
        exact (Option.map_eq_none_iff.mp sameAmount.symm).symm
    | some bond =>
        rw [left, Option.map_some, eq_comm, Option.map_eq_some_iff] at sameAmount
        obtain ⟨same, right, amountEq⟩ := sameAmount
        have ownerEq : bond.owner = same.owner :=
          (key_of_lookup left).trans (key_of_lookup right).symm
        cases bond
        cases same
        cases ownerEq
        cases amountEq
        exact right.symm
  have perm := mirrors.sorted.distinct.perm_of_lookup others.sorted.distinct sameLookup
  exact perm.eq_of_pairwise (fun left right _ _ below above => absurd below above.asymm)
    mirrors.sorted others.sorted

end Mirrors

/-! ## Sorting and removing duplicates -/

theorem compare_bond_ne_gt (left right : Bond AccountId) :
    compare left right ≠ .gt ↔ left.owner ≤ right.owner := by
  rw [compare_bond, ne_eq, compare_gt_iff_gt, not_lt]

instance ownerTotal : Std.Total (fun left right : Bond AccountId => compare left right ≠ .gt) :=
  ⟨fun left right => by
    simp only [compare_bond_ne_gt]
    exact le_total _ _⟩

instance ownerTrans : IsTrans (Bond AccountId) (fun left right => compare left right ≠ .gt) :=
  ⟨fun left middle right => by
    simp only [compare_bond_ne_gt]
    exact le_trans⟩

theorem compare_bond_eq (left right : Bond AccountId) :
    compare left right = .eq ↔ left.owner = right.owner := by
  rw [compare_bond, compare_eq_iff_eq]

/-- A sorting step puts an entry before those of the same owner. -/
theorem lookup_orderedInsert (entries : List (Bond AccountId)) (owner : AccountId) :
    lookup Bond.owner
        (entries.orderedInsert (fun left right => compare left right ≠ .gt) value) owner =
      lookup Bond.owner (value :: entries) owner := by
  induction entries with
  | nil => rfl
  | cons head rest ih =>
      by_cases first : compare value head ≠ .gt
      · rw [List.orderedInsert, if_pos first]
      · have below : head.owner < value.owner := by
          rwa [compare_bond_ne_gt, not_le] at first
        rw [List.orderedInsert, if_neg first, lookup_cons, ih, lookup_cons, lookup_cons,
          lookup_cons]
        by_cases isValue : value.owner = owner
        · rw [if_neg (isValue ▸ below.ne), if_pos isValue, if_pos isValue]
        · rw [if_neg isValue, if_neg isValue]

theorem lookup_insertionSort (entries : List (Bond AccountId)) (owner : AccountId) :
    lookup Bond.owner
        (entries.insertionSort fun left right => compare left right ≠ .gt) owner =
      lookup Bond.owner entries owner := by
  induction entries with
  | nil => rfl
  | cons head rest ih =>
      rw [List.insertionSort_cons, lookup_orderedInsert, lookup_cons, lookup_cons, ih]

theorem dedup_sublist {α : Type} [Ord α] (entries : List α) :
    (dedup entries).Sublist entries := by
  induction entries with
  | nil => exact List.Sublist.slnil
  | cons head rest ih =>
      rw [dedup]
      cases restEq : dedup rest with
      | nil => exact (List.nil_sublist rest).cons_cons head
      | cons next others =>
          rw [restEq] at ih
          dsimp only
          split
          · exact ((List.sublist_cons_self next others).trans ih).cons_cons head
          · exact ih.cons_cons head

/-- Without duplicates a sorted vector is strictly sorted and keeps every lookup. -/
theorem dedup_sorted (ascending : entries.Pairwise fun left right => compare left right ≠ .gt) :
    SortedByOwner (dedup entries) ∧
      ∀ owner, lookup Bond.owner (dedup entries) owner = lookup Bond.owner entries owner := by
  induction entries with
  | nil => exact ⟨List.Pairwise.nil, fun _ => rfl⟩
  | cons head rest ih =>
      obtain ⟨headLeast, restAscending⟩ := List.pairwise_cons.mp ascending
      obtain ⟨sorted, lookups⟩ := ih restAscending
      have kept := dedup_sublist rest
      rw [dedup]
      cases restEq : dedup rest with
      | nil =>
          rw [restEq] at lookups
          refine ⟨sortedByOwner_singleton, fun owner => ?_⟩
          rw [lookup_cons, lookup_cons, lookups]
      | cons next others =>
          rw [restEq] at sorted lookups kept
          obtain ⟨nextLeast, othersSorted⟩ := List.pairwise_cons.mp sorted
          have headLe : head.owner ≤ next.owner :=
            (compare_bond_ne_gt head next).mp (headLeast next (kept.subset (by simp)))
          dsimp only
          by_cases equal : head.owner = next.owner
          · rw [if_pos ((compare_bond_eq head next).mpr equal)]
            refine ⟨List.pairwise_cons.mpr ⟨?_, othersSorted⟩, fun owner => ?_⟩
            · intro other member
              rw [equal]
              exact nextLeast other member
            · rw [lookup_cons, lookup_cons, ← lookups, lookup_cons, ← equal]
              split <;> rfl
          · have less : head.owner < next.owner := lt_of_le_of_ne headLe equal
            rw [if_neg fun same => equal ((compare_bond_eq head next).mp same)]
            refine ⟨List.pairwise_cons.mpr ⟨?_, sorted⟩, fun owner => ?_⟩
            · intro other member
              rcases List.mem_cons.mp member with rfl | further
              · exact less
              · exact less.trans (nextLeast other further)
            · rw [lookup_cons, lookups, ← lookup_cons]

/-- A set made from a vector holds what adding its bonds in order does. -/
theorem get_addAll (map : OwnerMap AccountId) (bonds : List (Bond AccountId))
    (owner : AccountId) :
    (map.addAll bonds).get owner =
      (map.get owner).or ((lookup Bond.owner bonds owner).map Bond.amount) := by
  induction bonds generalizing map with
  | nil => simp [OwnerMap.addAll]
  | cons head rest ih =>
      have step : map.addAll (head :: rest) = (map.add head).1.addAll rest := rfl
      rw [step, ih, OwnerMap.add, lookup_cons]
      by_cases isHead : head.owner = owner
      · rw [if_pos isHead, ← isHead]
        cases known : map.get head.owner with
        | some amount => simp [OwnerMap.has, known]
        | none => simp [OwnerMap.has, known]
      · rw [if_neg isHead]
        split
        next => rfl
        next => rw [StorageMap.get_insert_of_ne map head.amount (Ne.symm isHead)]

/-- Sorting a vector and removing its duplicates keeps the first bond of every owner. -/
theorem mirrors_dedup (values : List (Bond AccountId)) :
    Mirrors (dedup (values.insertionSort fun left right => compare left right ≠ .gt))
      (OwnerMap.addAll .empty values) where
  sorted := (dedup_sorted (List.pairwise_insertionSort _ _)).1
  amounts owner := by
    rw [(dedup_sorted (List.pairwise_insertionSort _ _)).2, lookup_insertionSort, get_addAll,
      StorageMap.get_empty, Option.none_or]

/-! ## The search -/

/-- What the standard library promises of a binary search for an owner: a matching index, or
the insertion point. -/
inductive OwnerSearch (owner : AccountId) (entries : List (Bond AccountId)) :
    Except Nat Nat → Prop where
  | found (index : Nat) (inBounds : index < entries.length)
      (equal : entries[index].owner = owner) : OwnerSearch owner entries (.ok index)
  | missing (index : Nat) (inBounds : index ≤ entries.length)
      (before : ∀ entry ∈ entries.take index, entry.owner < owner)
      (after : ∀ entry ∈ entries.drop index, owner < entry.owner) :
      OwnerSearch owner entries (.error index)

/-- In a strictly sorted vector the promise leaves one result, that of the model. -/
theorem SortedByOwner.search_unique (sorted : SortedByOwner entries) {outcome : Except Nat Nat}
    (promised : OwnerSearch value.owner entries outcome) :
    outcome = binarySearch value entries := by
  induction entries generalizing outcome with
  | nil =>
      cases promised with
      | found index inBounds _ => exact absurd inBounds (Nat.not_lt_zero index)
      | missing index inBounds _ _ =>
          cases Nat.le_zero.mp inBounds
          rfl
  | cons head rest ih =>
      obtain ⟨headLeast, restSorted⟩ := List.pairwise_cons.mp sorted
      rw [binarySearch_cons]
      cases promised with
      | found index inBounds equal =>
          cases index with
          | zero =>
              have isHead : head.owner = value.owner := equal
              rw [if_neg isHead.not_lt, if_pos isHead]
          | succ index =>
              have inRest : index < rest.length := Nat.lt_of_succ_lt_succ inBounds
              have below : head.owner < value.owner :=
                lt_of_lt_of_eq (headLeast rest[index] (List.getElem_mem inRest)) equal
              rw [if_pos below, ← ih restSorted (.found index inRest equal)]
      | missing index inBounds before after =>
          cases index with
          | zero =>
              have above : value.owner < head.owner := after head (by simp)
              rw [if_neg above.asymm, if_neg above.ne']
          | succ index =>
              have below : head.owner < value.owner := before head (by simp)
              have inRest : OwnerSearch value.owner rest (.error index) :=
                .missing index (Nat.le_of_succ_le_succ inBounds)
                  (fun entry member => before entry (by simp [member])) after
              rw [if_pos below, ← ih restSorted inRest]

/-! ## The operations -/

namespace Mirrors

/-- What a binary search finds in a vector, and what can be done there. -/
theorem search_cases (mirrors : Mirrors entries map) (value : Bond AccountId) :
    (∃ index, binarySearch value entries = .ok index ∧ map.has value.owner = true ∧
        Mirrors (entries.eraseIdx index) (map.remove value.owner)) ∨
      (∃ index, binarySearch value entries = .error index ∧ map.has value.owner = false ∧
        Mirrors (entries.insertIdx index value) (map.insert value.owner value.amount) ∧
        (entries.insertIdx index value).length = entries.length + 1) := by
  cases outcome : binarySearch value entries with
  | ok index =>
      refine .inl ⟨index, rfl, ?_, ?_⟩
      · rw [mirrors.has_eq]
        exact mirrors.sorted.lookup_of_search.mp ⟨index, outcome⟩
      · rw [mirrors.sorted.eraseIdx_eq_erase outcome]
        exact mirrors.erased value.owner
  | error index =>
      obtain ⟨insertedSorted, perm, absent⟩ := mirrors.sorted.insertIdx outcome
      refine .inr ⟨index, rfl, ?_, mirrors.inserted insertedSorted perm, perm.length_eq⟩
      rw [mirrors.has_eq, absent, Option.isSome_none]

theorem remove_of_absent {owner : AccountId} (missing : map.has owner = false) :
    map.remove owner = map := by
  ext query : 1
  rw [StorageMap.get_remove]
  split
  next isOwner =>
    rw [isOwner]
    exact (Option.isNone_iff_eq_none.mp (Option.isSome_eq_false_iff.mp missing)).symm
  next => rfl

theorem insert {set : OrderedSet (Bond AccountId)} (mirrors : Mirrors set.entries map)
    (value : Bond AccountId) :
    Mirrors (set.insert value).1.entries (map.add value).1 ∧
      (set.insert value).2 = (map.add value).2 := by
  rcases mirrors.search_cases value with
    ⟨index, outcome, present, _⟩ | ⟨index, outcome, missing, inserted, _⟩
  · simp only [OrderedSet.insert, outcome, OwnerMap.add, present, if_true]
    exact ⟨mirrors, trivial⟩
  · simp only [OrderedSet.insert, outcome, OwnerMap.add, missing, Bool.false_eq_true, if_false]
    exact ⟨inserted, trivial⟩

theorem remove {set : OrderedSet (Bond AccountId)} (mirrors : Mirrors set.entries map)
    (value : Bond AccountId) :
    Mirrors (set.remove value).1.entries (map.drop value.owner).1 ∧
      (set.remove value).2 = (map.drop value.owner).2 := by
  rcases mirrors.search_cases value with
    ⟨index, outcome, present, removed⟩ | ⟨index, outcome, missing, _⟩
  · simp only [OrderedSet.remove, outcome, OwnerMap.drop, present]
    exact ⟨removed, trivial⟩
  · simp only [OrderedSet.remove, outcome, OwnerMap.drop, missing, remove_of_absent missing]
    exact ⟨mirrors, trivial⟩

theorem contains {set : OrderedSet (Bond AccountId)} (mirrors : Mirrors set.entries map)
    (value : Bond AccountId) : set.contains value = map.has value.owner := by
  rcases mirrors.search_cases value with
    ⟨index, outcome, present, _⟩ | ⟨index, outcome, missing, _⟩
  · simp only [OrderedSet.contains, outcome, present]
  · simp only [OrderedSet.contains, outcome, missing]

end Mirrors

/-- An operation on a set of bonds. -/
inductive SetOperation (AccountId : Type) where
  | insert (value : Bond AccountId)
  | remove (value : Bond AccountId)
  | contains (value : Bond AccountId)
  | fromVec (values : List (Bond AccountId))

namespace SetOperation

/-- The operation on the vector, and its answer. -/
def perform (set : OrderedSet (Bond AccountId)) :
    SetOperation AccountId → OrderedSet (Bond AccountId) × Bool
  | .insert value => set.insert value
  | .remove value => set.remove value
  | .contains value => (set, set.contains value)
  | .fromVec values => (OrderedSet.fromVec values, true)

/-- The operation on the map, and its answer. -/
def onMap (map : OwnerMap AccountId) : SetOperation AccountId → OwnerMap AccountId × Bool
  | .insert value => map.add value
  | .remove value => map.drop value.owner
  | .contains value => (map, map.has value.owner)
  | .fromVec values => (OwnerMap.addAll .empty values, true)

theorem perform_mirrors {set : OrderedSet (Bond AccountId)}
    (mirrors : Mirrors set.entries map) (operation : SetOperation AccountId) :
    Mirrors (operation.perform set).1.entries (operation.onMap map).1 ∧
      (operation.perform set).2 = (operation.onMap map).2 := by
  cases operation with
  | insert value => exact mirrors.insert value
  | remove value => exact mirrors.remove value
  | contains value => exact ⟨mirrors, mirrors.contains value⟩
  | fromVec values => exact ⟨mirrors_dedup values, rfl⟩

end SetOperation

/-- What an operation on a bounded set answers. -/
inductive SetAnswer where
  | flag (happened : Bool)
  | full
  | panicked
  deriving DecidableEq

/-- An operation on a bounded set of bonds.  The vector a set is made from is bounded. -/
inductive BoundedOperation (AccountId : Type) (capacity : Nat) where
  | tryInsert (value : Bond AccountId)
  | remove (value : Bond AccountId)
  | contains (value : Bond AccountId)
  | fromVec (values : List (Bond AccountId)) (fits : values.length ≤ capacity)
  | updateActive (candidate : AccountId) (total : Nat)

/-- What `update_active` makes of the pool. -/
def refreshedPool (capacity : Nat) (pool : BoundedOrderedSet (Bond AccountId))
    (candidate : AccountId) (total : Nat) : Option (BoundedOrderedSet (Bond AccountId)) :=
  ((pool.remove (Bond.fromOwner candidate)).1.tryInsert capacity
    { owner := candidate, amount := total }).map Prod.fst

theorem updateActive_eq {Native : Type} (config : Config AccountId Native)
    (stakes : Stakes AccountId Native) (candidate : AccountId) (total : Nat) :
    updateActive config candidate total stakes =
      match refreshedPool config.maxCandidates stakes.candidatePool candidate total with
      | some pool => (.ok (), { stakes with candidatePool := pool })
      | none => (.error (.panic .candidateRemovedInPreviousStep), stakes) := by
  have afterRead : updateActive config candidate total stakes =
      (Exec.require ((stakes.candidatePool.remove (Bond.fromOwner candidate)).1.tryInsert
          config.maxCandidates { owner := candidate, amount := total })
          (.panic .candidateRemovedInPreviousStep) >>= fun inserted =>
        Exec.write fun stakes => { stakes with candidatePool := inserted.1 }) stakes := rfl
  rw [afterRead, refreshedPool]
  cases (stakes.candidatePool.remove (Bond.fromOwner candidate)).1.tryInsert
      config.maxCandidates { owner := candidate, amount := total } with
  | none => rfl
  | some result => rfl

/-- A bounded set and the map it stores. -/
structure BoundedMirrors (capacity : Nat) (set : BoundedOrderedSet (Bond AccountId))
    (map : OwnerMap AccountId) : Prop where
  mirrors : Mirrors set.entries map
  bounded : set.entries.length ≤ capacity

namespace BoundedMirrors

variable {set : BoundedOrderedSet (Bond AccountId)} {capacity : Nat}

theorem empty : BoundedMirrors capacity ⟨[]⟩ (StorageMap.empty : OwnerMap AccountId) where
  mirrors := Mirrors.nil
  bounded := Nat.zero_le capacity

theorem fromVec (values : List (Bond AccountId)) (fits : values.length ≤ capacity) :
    BoundedMirrors capacity (.fromVec values) (OwnerMap.addAll .empty values) where
  mirrors := mirrors_dedup values
  bounded :=
    ((dedup_sublist _).length_le.trans_eq (List.length_insertionSort _ values)).trans fits

variable (holds : BoundedMirrors capacity set map)
include holds

theorem tryInsert_cases (value : Bond AccountId) :
    (map.has value.owner = true ∧ set.tryInsert capacity value = some (set, false)) ∨
      (map.has value.owner = false ∧ map.keys.card < capacity ∧
        ∃ longer, set.tryInsert capacity value = some (longer, true) ∧
          BoundedMirrors capacity longer (map.insert value.owner value.amount)) ∨
      (map.has value.owner = false ∧ ¬map.keys.card < capacity ∧
        set.tryInsert capacity value = none) := by
  rw [holds.mirrors.card]
  rcases holds.mirrors.search_cases value with
    ⟨index, outcome, present, _⟩ | ⟨index, outcome, missing, inserted, length⟩
  · exact .inl ⟨present, by simp only [BoundedOrderedSet.tryInsert, outcome]⟩
  · by_cases room : set.entries.length < capacity
    · refine .inr (.inl ⟨missing, room, ⟨set.entries.insertIdx index value⟩, ?_, inserted, ?_⟩)
      · simp only [BoundedOrderedSet.tryInsert, outcome, if_pos room]
      · rw [length]
        exact room
    · refine .inr (.inr ⟨missing, room, ?_⟩)
      simp only [BoundedOrderedSet.tryInsert, outcome, if_neg room]

theorem remove (value : Bond AccountId) :
    BoundedMirrors capacity (set.remove value).1 (map.drop value.owner).1 ∧
      (set.remove value).2 = (map.drop value.owner).2 := by
  rcases holds.mirrors.search_cases value with
    ⟨index, outcome, present, removed⟩ | ⟨index, outcome, missing, _⟩
  · simp only [BoundedOrderedSet.remove, outcome, OwnerMap.drop, present]
    exact ⟨⟨removed, (List.eraseIdx_sublist _ _).length_le.trans holds.bounded⟩, trivial⟩
  · simp only [BoundedOrderedSet.remove, outcome, OwnerMap.drop, missing,
      Mirrors.remove_of_absent missing]
    exact ⟨holds, trivial⟩

theorem contains (value : Bond AccountId) : set.contains value = map.has value.owner := by
  rcases holds.mirrors.search_cases value with
    ⟨index, outcome, present, _⟩ | ⟨index, outcome, missing, _⟩
  · simp only [BoundedOrderedSet.contains, outcome, present]
  · simp only [BoundedOrderedSet.contains, outcome, missing]

/-- Without the candidate there is room in the pool, if the candidate had a place or there was
room before. -/
theorem card_remove (candidate : AccountId) :
    (map.remove candidate).keys.card < capacity ↔
      map.has candidate = true ∨ map.keys.card < capacity := by
  have bounded := holds.bounded
  rw [← holds.mirrors.card] at bounded
  have keysEq : (map.remove candidate).keys = map.keys.erase candidate := rfl
  rw [keysEq, OwnerMap.has, ← map.mem_keys]
  by_cases member : candidate ∈ map.keys
  · have positive := Finset.card_pos.mpr ⟨candidate, member⟩
    rw [Finset.card_erase_of_mem member]
    simp only [member, true_or, iff_true]
    omega
  · rw [Finset.erase_eq_of_notMem member]
    simp only [member, false_or]

/-- Refreshing the pool replaces the amount of a candidate; for an account outside the pool it
is an insertion. -/
theorem refreshedPool_cases (candidate : AccountId) (total : Nat) :
    ((map.has candidate = true ∨ map.keys.card < capacity) ∧
        ∃ pool, refreshedPool capacity set candidate total = some pool ∧
          BoundedMirrors capacity pool (map.insert candidate total)) ∨
      (¬(map.has candidate = true ∨ map.keys.card < capacity) ∧
        refreshedPool capacity set candidate total = none) := by
  have removed : BoundedMirrors capacity (set.remove (Bond.fromOwner candidate)).1
      (map.remove candidate) := (holds.remove (Bond.fromOwner candidate)).1
  rw [← holds.card_remove candidate]
  rcases removed.tryInsert_cases { owner := candidate, amount := total } with
    ⟨present, _⟩ | ⟨_, room, longer, inserted, longerHolds⟩ | ⟨_, full, failed⟩
  · simp [OwnerMap.has] at present
  · refine .inl ⟨room, longer, by rw [refreshedPool, inserted, Option.map_some], ?_⟩
    have replaced := map.put_put_self candidate none (some total)
    rw [StorageMap.put_none, StorageMap.put_some, StorageMap.put_some] at replaced
    exact replaced ▸ longerHolds
  · exact .inr ⟨full, by rw [refreshedPool, failed, Option.map_none]⟩

end BoundedMirrors

namespace BoundedOperation

variable {capacity : Nat}

/-- The operation on the vector, and its answer.  An insertion into a full set changes nothing,
and a panic stores nothing. -/
def perform (set : BoundedOrderedSet (Bond AccountId)) :
    BoundedOperation AccountId capacity → BoundedOrderedSet (Bond AccountId) × SetAnswer
  | .tryInsert value =>
      match set.tryInsert capacity value with
      | some (after, inserted) => (after, .flag inserted)
      | none => (set, .full)
  | .remove value => ((set.remove value).1, .flag (set.remove value).2)
  | .contains value => (set, .flag (set.contains value))
  | .fromVec values _ => (.fromVec values, .flag true)
  | .updateActive candidate total =>
      match refreshedPool capacity set candidate total with
      | some after => (after, .flag true)
      | none => (set, .panicked)

/-- The operation on the map, and its answer.  The map may have `capacity` owners. -/
def onMap (map : OwnerMap AccountId) :
    BoundedOperation AccountId capacity → OwnerMap AccountId × SetAnswer
  | .tryInsert value =>
      if map.has value.owner then (map, .flag false)
      else if map.keys.card < capacity then
        (map.insert value.owner value.amount, .flag true)
      else (map, .full)
  | .remove value => (map.remove value.owner, .flag (map.has value.owner))
  | .contains value => (map, .flag (map.has value.owner))
  | .fromVec values _ => (OwnerMap.addAll .empty values, .flag true)
  | .updateActive candidate total =>
      if map.has candidate ∨ map.keys.card < capacity then
        (map.insert candidate total, .flag true)
      else (map, .panicked)

theorem perform_mirrors {set : BoundedOrderedSet (Bond AccountId)}
    (holds : BoundedMirrors capacity set map)
    (operation : BoundedOperation AccountId capacity) :
    BoundedMirrors capacity (operation.perform set).1 (operation.onMap map).1 ∧
      (operation.perform set).2 = (operation.onMap map).2 := by
  cases operation with
  | tryInsert value =>
      rcases holds.tryInsert_cases value with ⟨present, outcome⟩ |
        ⟨missing, room, longer, outcome, longerHolds⟩ | ⟨missing, full, outcome⟩
      · simp only [perform, onMap, outcome, present, if_true]
        exact ⟨holds, trivial⟩
      · simp only [perform, onMap, outcome, missing, room, Bool.false_eq_true, if_false, if_true]
        exact ⟨longerHolds, trivial⟩
      · simp only [perform, onMap, outcome, missing, full, Bool.false_eq_true, if_false]
        exact ⟨holds, trivial⟩
  | remove value =>
      obtain ⟨removed, flag⟩ := holds.remove value
      exact ⟨removed, congrArg SetAnswer.flag flag⟩
  | contains value => exact ⟨holds, congrArg SetAnswer.flag (holds.contains value)⟩
  | fromVec values fits => exact ⟨.fromVec values fits, rfl⟩
  | updateActive candidate total =>
      rcases holds.refreshedPool_cases candidate total with
        ⟨accepted, pool, outcome, poolHolds⟩ | ⟨refused, outcome⟩
      · simp only [perform, onMap, outcome, accepted, if_true]
        exact ⟨poolHolds, trivial⟩
      · simp only [perform, onMap, outcome, refused, if_false]
        exact ⟨holds, trivial⟩

end BoundedOperation

/-- Over every sequence of operations from the empty set, a set of bonds is a strictly sorted
vector that stores what the map does and gives the same answers; a bounded one never exceeds its
capacity.  `update_active` is the operation on the pool. -/
theorem ordered_sets_are_maps {Native : Type} :
    (∀ operations : List (SetOperation AccountId),
      Mirrors (serve SetOperation.perform ⟨[]⟩ operations).1.entries
          (serve SetOperation.onMap .empty operations).1 ∧
        (serve SetOperation.perform ⟨[]⟩ operations).2 =
          (serve SetOperation.onMap .empty operations).2) ∧
      (∀ (capacity : Nat) (operations : List (BoundedOperation AccountId capacity)),
        BoundedMirrors capacity (serve BoundedOperation.perform ⟨[]⟩ operations).1
            (serve BoundedOperation.onMap .empty operations).1 ∧
          (serve BoundedOperation.perform ⟨[]⟩ operations).2 =
            (serve BoundedOperation.onMap .empty operations).2) ∧
      ∀ (config : Config AccountId Native) (stakes : Stakes AccountId Native)
        (candidate : AccountId) (total : Nat),
        updateActive config candidate total stakes =
          match refreshedPool config.maxCandidates stakes.candidatePool candidate total with
          | some pool => (.ok (), { stakes with candidatePool := pool })
          | none => (.error (.panic .candidateRemovedInPreviousStep), stakes) := by
  refine ⟨fun operations => ?_, fun capacity operations => ?_, updateActive_eq⟩
  · exact serve_related
      (fun (set : OrderedSet (Bond AccountId)) map => Mirrors set.entries map)
      (fun _ _ operation mirrors => operation.perform_mirrors mirrors)
      Mirrors.nil operations
  · exact serve_related (BoundedMirrors capacity)
      (fun _ _ operation holds => operation.perform_mirrors holds)
      BoundedMirrors.empty operations

end Popsicle
