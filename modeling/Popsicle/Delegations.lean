import Popsicle.Set
import Popsicle.Foundation.Ranked

/-!
# Lists of delegations

The list operations of `Delegations` in `types.rs`.  The binary search of the
standard library may report any of several equal entries, so the insertion is
stated for every outcome of the search and instantiated with one.
-/

namespace Popsicle

open Foundation

variable {AccountId : Type}

namespace Delegations

/-- The empty list of delegations. -/
def default : Delegations AccountId := { delegations := [], total := 0 }

def sortGreatestToLeast (self : Delegations AccountId) : Delegations AccountId :=
  { self with delegations := Ranked.sort Bond.amount self.delegations }

/-- The number of leading entries with a given amount. -/
def countEqual (amount : Nat) : List (Bond AccountId) → Nat
  | [] => 0
  | entry :: rest => if entry.amount = amount then countEqual amount rest + 1 else 0

/-- Where a new delegation goes once a search has reported `found`: behind the
run of equal entries, or at the insertion point. -/
def insertionIndex (found : Except Nat Nat) (entries : List (Bond AccountId))
    (amount : Nat) : Nat :=
  match found with
  | .ok index => index + 1 + countEqual amount (entries.drop (index + 1))
  | .error index => index

/-- Insert sorted from greatest to least, given the outcome of the binary search. -/
def insertSortedWith (found : Except Nat Nat) (self : Delegations AccountId)
    (delegation : Bond AccountId) : Delegations AccountId :=
  let total := self.total + delegation.amount
  match self.delegations.getLast? with
  | some last =>
      if last.amount = delegation.amount then
        { delegations := self.delegations ++ [delegation], total }
      else
        { delegations := self.delegations.insertIdx
            (insertionIndex found self.delegations delegation.amount) delegation, total }
  | none =>
      { delegations := self.delegations.insertIdx
          (insertionIndex found self.delegations delegation.amount) delegation, total }

/-- Insert sorted from greatest to least and increase the total accordingly. -/
def insertSortedGreatestToLeast (self : Delegations AccountId) (delegation : Bond AccountId) :
    Delegations AccountId :=
  insertSortedWith
    (binarySearchBy (fun entry => compare delegation.amount entry.amount) self.delegations)
    self delegation

/-- Capacity status against a maximal length. -/
def capacity (self : Delegations AccountId) (max : Nat) : CapacityStatus :=
  if self.delegations.length ≥ max then .full
  else if self.delegations.isEmpty then .empty
  else .partlyFull

def lowestDelegationAmount (self : Delegations AccountId) : Nat :=
  (self.delegations.getLast?.map Bond.amount).getD 0

def highestDelegationAmount (self : Delegations AccountId) : Nat :=
  (self.delegations.head?.map Bond.amount).getD 0

/-- Remove the last delegation without adjusting the total. -/
def pop (self : Delegations AccountId) : Option (Delegations AccountId × Bond AccountId) :=
  self.delegations.getLast?.map fun last =>
    ({ self with delegations := self.delegations.dropLast }, last)

/-! ## Sorted insertion -/

/-- What the standard library promises of a binary search for an amount in a list
sorted from greatest to least: some matching index, or the insertion point. -/
inductive SearchOutcome (amount : Nat) (entries : List (Bond AccountId)) :
    Except Nat Nat → Prop where
  | found (index : Nat) (inBounds : index < entries.length)
      (equal : entries[index].amount = amount) : SearchOutcome amount entries (.ok index)
  | missing (index : Nat) (inBounds : index ≤ entries.length)
      (before : ∀ entry ∈ entries.take index, amount < entry.amount)
      (after : ∀ entry ∈ entries.drop index, entry.amount < amount) :
      SearchOutcome amount entries (.error index)

variable {entries : List (Bond AccountId)} {delegation : Bond AccountId} {amount : Nat}

theorem place_eq_insertIdx (descending : Ranked.Descending Bond.amount entries) :
    Ranked.place Bond.amount delegation entries =
      entries.insertIdx (entries.countP fun entry => delegation.amount ≤ entry.amount)
        delegation := by
  induction entries with
  | nil => rfl
  | cons head rest ih =>
      obtain ⟨headGreatest, restDescending⟩ := List.pairwise_cons.mp descending
      rw [Ranked.place_cons]
      split
      next smaller =>
        have none : (head :: rest).countP (fun entry => delegation.amount ≤ entry.amount) = 0 := by
          rw [List.countP_eq_zero]
          intro entry member
          have bound : entry.amount ≤ head.amount := by
            rcases List.mem_cons.mp member with rfl | inRest
            · exact le_refl _
            · exact headGreatest entry inRest
          simpa using lt_of_le_of_lt bound smaller
        rw [none]
        rfl
      next notSmaller =>
        have counted : delegation.amount ≤ head.amount := Nat.le_of_not_lt notSmaller
        rw [List.countP_cons_of_pos (by simpa using counted), List.insertIdx_succ_cons,
          ih restDescending]

/-- Below a bound, the entries that reach it are the leading equal ones. -/
theorem countEqual_eq_countP (descending : Ranked.Descending Bond.amount entries)
    (bounded : ∀ entry ∈ entries, entry.amount ≤ amount) :
    countEqual amount entries = entries.countP fun entry => amount ≤ entry.amount := by
  induction entries with
  | nil => rfl
  | cons head rest ih =>
      obtain ⟨headGreatest, restDescending⟩ := List.pairwise_cons.mp descending
      have headBound := bounded head (by simp)
      have restCount := ih restDescending fun entry member => bounded entry (by simp [member])
      by_cases equal : head.amount = amount
      · rw [List.countP_cons_of_pos (by simp [equal]), countEqual, if_pos equal, restCount]
      · have none : rest.countP (fun entry => amount ≤ entry.amount) = 0 := by
          rw [List.countP_eq_zero]
          intro entry member
          have bound : entry.amount ≤ head.amount := headGreatest entry member
          simpa using lt_of_le_of_lt bound (lt_of_le_of_ne headBound equal)
        rw [List.countP_cons_of_neg (by simpa using lt_of_le_of_ne headBound equal), none,
          countEqual, if_neg equal]

theorem insertionIndex_eq_countP (descending : Ranked.Descending Bond.amount entries)
    {found : Except Nat Nat} (outcome : SearchOutcome amount entries found) :
    insertionIndex found entries amount =
      entries.countP fun entry => amount ≤ entry.amount := by
  cases outcome with
  | found index inBounds equal =>
      have split := List.take_append_drop (index + 1) entries
      have parts := descending
      rw [← split] at parts
      obtain ⟨_, dropDescending, above⟩ := List.pairwise_append.mp parts
      have atIndex : entries[index] ∈ entries.take (index + 1) := by
        rw [List.mem_take_iff_getElem]
        exact ⟨index, by omega, rfl⟩
      have bounded : ∀ entry ∈ entries.drop (index + 1), entry.amount ≤ amount := by
        intro entry member
        rw [← equal]
        exact above _ atIndex entry member
      have reached : ∀ entry ∈ entries.take (index + 1), amount ≤ entry.amount := by
        intro entry member
        obtain ⟨position, low, rfl⟩ := List.mem_take_iff_getElem.mp member
        rcases Nat.lt_or_ge position index with earlier | later
        · rw [← equal]
          exact List.pairwise_iff_getElem.mp descending _ _ _ _ earlier
        · have same : position = index := by omega
          subst same
          exact equal.ge
      have takeCount : (entries.take (index + 1)).countP (fun entry => amount ≤ entry.amount) =
          index + 1 := by
        rw [List.countP_eq_length.mpr fun entry member => by simpa using reached entry member,
          List.length_take]
        omega
      calc insertionIndex (.ok index) entries amount
          = index + 1 + countEqual amount (entries.drop (index + 1)) := rfl
        _ = (entries.take (index + 1)).countP (fun entry => amount ≤ entry.amount) +
              (entries.drop (index + 1)).countP (fun entry => amount ≤ entry.amount) := by
            rw [takeCount, countEqual_eq_countP dropDescending bounded]
        _ = entries.countP (fun entry => amount ≤ entry.amount) := by
            rw [← List.countP_append, split]
  | missing index inBounds before after =>
      have split := List.take_append_drop index entries
      have takeCount : (entries.take index).countP (fun entry => amount ≤ entry.amount) =
          index := by
        rw [List.countP_eq_length.mpr fun entry member => by
          simpa using (before entry member).le, List.length_take]
        omega
      have dropCount : (entries.drop index).countP (fun entry => amount ≤ entry.amount) = 0 := by
        rw [List.countP_eq_zero]
        intro entry member
        simpa using after entry member
      calc insertionIndex (.error index) entries amount
          = (entries.take index).countP (fun entry => amount ≤ entry.amount) +
              (entries.drop index).countP (fun entry => amount ≤ entry.amount) := by
            rw [takeCount, dropCount]
            rfl
        _ = entries.countP (fun entry => amount ≤ entry.amount) := by
            rw [← List.countP_append, split]

/-- Insertion places the new delegation behind every entry that is not smaller,
whichever matching index the search reports. -/
theorem insertSortedWith_delegations {self : Delegations AccountId}
    (descending : Ranked.Descending Bond.amount self.delegations) {found : Except Nat Nat}
    (outcome : SearchOutcome delegation.amount self.delegations found) :
    (insertSortedWith found self delegation).delegations =
      Ranked.place Bond.amount delegation self.delegations := by
  have plain : self.delegations.insertIdx
      (insertionIndex found self.delegations delegation.amount) delegation =
        Ranked.place Bond.amount delegation self.delegations := by
    rw [insertionIndex_eq_countP descending outcome, place_eq_insertIdx descending]
  unfold insertSortedWith
  cases lastEq : self.delegations.getLast? with
  | none => exact plain
  | some last =>
      dsimp only
      split
      next equal =>
        symm
        apply Ranked.place_eq_append
        intro other member
        obtain ⟨init, listEq⟩ := List.getLast?_eq_some_iff.mp lastEq
        rw [listEq] at member descending
        rcases List.mem_append.mp member with inInit | isLast
        · have lastLe : last.amount ≤ other.amount :=
            (List.pairwise_append.mp descending).2.2 other inInit last (by simp)
          exact equal ▸ lastLe
        · rw [List.mem_singleton.mp isLast, equal]
      next => exact plain

@[simp] theorem insertSortedWith_total (found : Except Nat Nat) (self : Delegations AccountId)
    (delegation : Bond AccountId) :
    (insertSortedWith found self delegation).total = self.total + delegation.amount := by
  unfold insertSortedWith
  split
  · split <;> rfl
  · rfl

theorem binarySearchBy_outcome (descending : Ranked.Descending Bond.amount entries) :
    SearchOutcome amount entries
      (binarySearchBy (fun entry => compare amount entry.amount) entries) := by
  unfold binarySearchBy
  dsimp only
  generalize testEq :
    (fun entry : Bond AccountId => decide (compare amount entry.amount ≠ .lt)) = test
  have testIff : ∀ entry, test entry = true ↔ entry.amount ≤ amount := by
    intro entry
    simp [← testEq, compare_lt_iff_lt]
  have before : ∀ entry ∈ entries.take (entries.findIdx test), amount < entry.amount := by
    intro entry member
    obtain ⟨position, low, rfl⟩ := List.mem_take_iff_getElem.mp member
    have rejected : test entries[position] = false :=
      List.not_of_lt_findIdx (lt_min_iff.mp low).1
    by_contra notBelow
    have passed := (testIff entries[position]).mpr (Nat.le_of_not_lt notBelow)
    exact absurd passed (by simp [rejected])
  cases hit : entries[entries.findIdx test]? with
  | none =>
      refine .missing _ List.findIdx_le_length before ?_
      rw [List.getElem?_eq_none_iff] at hit
      simp [List.drop_eq_nil_of_le hit]
  | some entry =>
      obtain ⟨inBounds, at_⟩ := List.getElem?_eq_some_iff.mp hit
      have accepted : entry.amount ≤ amount := by
        have passed := List.findIdx_getElem (w := inBounds)
        rw [at_] at passed
        exact (testIff entry).mp passed
      dsimp only
      split
      next equal =>
        refine .found _ inBounds ?_
        rw [at_]
        exact (compare_eq_iff_eq.mp equal).symm
      next different =>
        refine .missing _ inBounds.le before ?_
        intro other member
        have strict : entry.amount < amount :=
          lt_of_le_of_ne accepted fun same => different (compare_eq_iff_eq.mpr same.symm)
        rw [List.drop_eq_getElem_cons inBounds, at_] at member
        rcases List.mem_cons.mp member with rfl | inRest
        · exact strict
        · obtain ⟨position, inDrop, rfl⟩ := List.mem_iff_getElem.mp inRest
          have inEntries : entries.findIdx test + 1 + position < entries.length := by
            rw [List.length_drop] at inDrop
            omega
          have lower : entries[entries.findIdx test + 1 + position].amount ≤
              entries[entries.findIdx test].amount :=
            List.pairwise_iff_getElem.mp descending _ _ inBounds inEntries (by omega)
          rw [at_] at lower
          rw [List.getElem_drop]
          exact lt_of_le_of_lt lower strict

/-- Sorted insertion places the new delegation behind every entry that is not smaller. -/
theorem insertSortedGreatestToLeast_delegations {self : Delegations AccountId}
    (descending : Ranked.Descending Bond.amount self.delegations) :
    (self.insertSortedGreatestToLeast delegation).delegations =
      Ranked.place Bond.amount delegation self.delegations :=
  insertSortedWith_delegations descending (binarySearchBy_outcome descending)

@[simp] theorem insertSortedGreatestToLeast_total (self : Delegations AccountId)
    (delegation : Bond AccountId) :
    (self.insertSortedGreatestToLeast delegation).total = self.total + delegation.amount :=
  insertSortedWith_total _ _ _

@[simp] theorem sortGreatestToLeast_total (self : Delegations AccountId) :
    self.sortGreatestToLeast.total = self.total := rfl

/-- The sum of the amounts in a list of delegations. -/
def sumAmounts (entries : List (Bond AccountId)) : Nat := (entries.map Bond.amount).sum

@[simp] theorem sumAmounts_nil : sumAmounts ([] : List (Bond AccountId)) = 0 := rfl

@[simp] theorem sumAmounts_cons (head : Bond AccountId) (rest : List (Bond AccountId)) :
    sumAmounts (head :: rest) = head.amount + sumAmounts rest := by
  simp [sumAmounts]

@[simp] theorem sumAmounts_append (left right : List (Bond AccountId)) :
    sumAmounts (left ++ right) = sumAmounts left + sumAmounts right := by
  simp [sumAmounts]

theorem sumAmounts_perm {left right : List (Bond AccountId)} (perm : left.Perm right) :
    sumAmounts left = sumAmounts right :=
  (perm.map Bond.amount).sum_eq

section Distinct

open Keyed

variable [DecidableEq AccountId] {entries : List (Bond AccountId)} {bond : Bond AccountId}
  {owner : AccountId}

theorem sumAmounts_erase (distinct : Distinct Bond.owner entries)
    (found : lookup Bond.owner entries owner = some bond) :
    sumAmounts entries = bond.amount + sumAmounts (erase Bond.owner entries owner) :=
  distinct.sum_erase found Bond.amount

theorem sumAmounts_adjust (distinct : Distinct Bond.owner entries)
    (found : lookup Bond.owner entries owner = some bond) (change : Nat → Nat) :
    sumAmounts (adjust Bond.owner entries owner fun bond =>
        { bond with amount := change bond.amount }) + bond.amount =
      sumAmounts entries + change bond.amount :=
  distinct.sum_adjust (fun bond => { bond with amount := change bond.amount })
    (fun _ => rfl) found Bond.amount

end Distinct

theorem pop_eq_some {self shorter : Delegations AccountId} {last : Bond AccountId}
    (popped : self.pop = some (shorter, last)) :
    self.delegations = shorter.delegations ++ [last] ∧ shorter.total = self.total := by
  simp only [pop, Option.map_eq_some_iff, Prod.mk.injEq] at popped
  obtain ⟨entry, lastEq, rfl, rfl⟩ := popped
  exact ⟨(List.dropLast_append_getLast? _ lastEq).symm, rfl⟩

theorem pop_eq_none {self : Delegations AccountId} :
    self.pop = none ↔ self.delegations = [] := by
  simp [pop]

end Delegations

end Popsicle
