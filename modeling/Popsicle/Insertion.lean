import Popsicle.Delegations

/-!
# Sorted insertion into a vector

`insert_sorted_greatest_to_least` with the vector it works on: every index and every insertion
point is checked against the length, and the total saturates.  It is compared with the insertion
into a list, whatever the binary search reports.
-/

namespace Popsicle

open Foundation

variable {AccountId : Type}

/-- The largest `u128`, the type of a balance. -/
def u128Max : Nat := 340282366920938463463374607431768211455

namespace Delegations.Indexed

/-- `Vec::insert`, which panics behind the end of the vector. -/
def vecInsert {α : Type} (entries : List α) (index : Nat) (value : α) : Option (List α) :=
  if index ≤ entries.length then some (entries.insertIdx index value) else none

/-- The scan over the equal entries from `newIndex` on, and the insertion where it ends.  For an
empty vector the length has no predecessor. -/
def scanEqual (entries : List (Bond AccountId)) (delegation : Bond AccountId)
    (newIndex : Nat) : Option (List (Bond AccountId)) :=
  if entries.length = 0 then none
  else if _ : newIndex ≤ entries.length - 1 then
    match entries[newIndex]? with
    | none => none
    | some entry =>
        if entry.amount = delegation.amount then scanEqual entries delegation (newIndex + 1)
        else vecInsert entries newIndex delegation
  else some (entries ++ [delegation])
termination_by entries.length - newIndex
decreasing_by omega

/-- Whether the last entry has the amount of the new one, which is then pushed early. -/
def lastIsEqual (entries : List (Bond AccountId)) (delegation : Bond AccountId) : Option Bool :=
  if entries.isEmpty then some false
  else
    entries[entries.length - 1]?.map fun last => decide (last.amount = delegation.amount)

/-- The insertion at what the binary search reports. -/
def insertFound (found : Except Nat Nat) (entries : List (Bond AccountId))
    (delegation : Bond AccountId) : Option (List (Bond AccountId)) :=
  match found with
  | .ok index => scanEqual entries delegation (index + 1)
  | .error index => vecInsert entries index delegation

/-- Insert sorted from greatest to least and increase the total accordingly, given what the
binary search reports.  No result is a panic. -/
def insertSortedGreatestToLeast (maxBalance : Nat) (found : Except Nat Nat)
    (self : Delegations AccountId) (delegation : Bond AccountId) :
    Option (Delegations AccountId) := do
  let total := min (self.total + delegation.amount) maxBalance
  if ← lastIsEqual self.delegations delegation then
    return { delegations := self.delegations ++ [delegation], total }
  let delegations ← insertFound found self.delegations delegation
  return { delegations, total }

variable {entries : List (Bond AccountId)} {delegation : Bond AccountId}

theorem vecInsert_of_le {index : Nat} (inside : index ≤ entries.length) :
    vecInsert entries index delegation = some (entries.insertIdx index delegation) :=
  if_pos inside

/-- The scan stops behind the run of equal entries, which is never outside the vector. -/
theorem scanEqual_eq (nonempty : entries ≠ []) {newIndex : Nat}
    (inside : newIndex ≤ entries.length) :
    scanEqual entries delegation newIndex =
      some (entries.insertIdx
        (newIndex + countEqual delegation.amount (entries.drop newIndex)) delegation) := by
  have positive : 0 < entries.length := List.length_pos_iff.mpr nonempty
  induction remaining : entries.length - newIndex generalizing newIndex with
  | zero =>
      have atEnd : newIndex = entries.length := by omega
      subst atEnd
      rw [scanEqual, if_neg positive.ne', dif_neg (by omega)]
      simp [countEqual]
  | succ left ih =>
      have within : newIndex < entries.length := by omega
      rw [scanEqual, if_neg positive.ne', dif_pos (by omega),
        List.getElem?_eq_getElem within, List.drop_eq_getElem_cons within, countEqual]
      dsimp only
      by_cases equal : entries[newIndex].amount = delegation.amount
      · rw [if_pos equal, if_pos equal, ih (by omega) (by omega)]
        congr 2
        omega
      · rw [if_neg equal, if_neg equal, vecInsert_of_le inside, Nat.add_zero]

theorem lastIsEqual_eq :
    lastIsEqual entries delegation =
      some (entries.getLast?.any fun last => decide (last.amount = delegation.amount)) := by
  unfold lastIsEqual
  cases listEq : entries with
  | nil => rfl
  | cons head rest =>
      rw [List.getLast?_eq_getElem?, List.getElem?_eq_getElem (by simp)]
      rfl

theorem insertFound_eq {found : Except Nat Nat}
    (outcome : SearchOutcome delegation.amount entries found) :
    insertFound found entries delegation =
      some (entries.insertIdx (insertionIndex found entries delegation.amount) delegation) := by
  cases outcome with
  | found index inBounds equal =>
      exact scanEqual_eq (List.ne_nil_of_length_pos (by omega)) inBounds
  | missing index inBounds before after => exact vecInsert_of_le inBounds

/-- No index is out of range, and the vector gets what the list gets. -/
theorem insertSortedGreatestToLeast_eq (maxBalance : Nat) {self : Delegations AccountId}
    {found : Except Nat Nat}
    (outcome : SearchOutcome delegation.amount self.delegations found) :
    insertSortedGreatestToLeast maxBalance found self delegation =
      some { delegations := (insertSortedWith found self delegation).delegations,
             total := min (self.total + delegation.amount) maxBalance } := by
  unfold insertSortedGreatestToLeast insertSortedWith
  rw [lastIsEqual_eq, insertFound_eq outcome]
  cases self.delegations.getLast? with
  | none => rfl
  | some last =>
      by_cases equal : last.amount = delegation.amount
      · simp [equal]
      · simp [equal]

/-- Insertion into a vector sorted from greatest to least never fails.  The new delegation
stands behind all delegations of the same or a greater amount and before all smaller ones,
whatever the binary search reports, and the total is the saturating sum. -/
theorem insertSortedGreatestToLeast_stable (maxBalance : Nat) (self : Delegations AccountId)
    (delegation : Bond AccountId)
    (descending : Ranked.Descending Bond.amount self.delegations) :
    ∃ before after, self.delegations = before ++ after ∧
      (∀ entry ∈ before, delegation.amount ≤ entry.amount) ∧
      (∀ entry ∈ after, entry.amount < delegation.amount) ∧
      Ranked.Descending Bond.amount (before ++ delegation :: after) ∧
      ∀ found, SearchOutcome delegation.amount self.delegations found →
        insertSortedGreatestToLeast maxBalance found self delegation =
          some { delegations := before ++ delegation :: after,
                 total := min (self.total + delegation.amount) maxBalance } := by
  obtain ⟨before, after, listEq, placed, reached, smaller⟩ := descending.place_split delegation
  refine ⟨before, after, listEq, reached, smaller, ?_, ?_⟩
  · rw [← placed]
    exact descending.place
  · intro found outcome
    rw [insertSortedGreatestToLeast_eq maxBalance outcome,
      insertSortedWith_delegations descending outcome, placed]

/-- Two delegations of 5 stand before the new one, whichever of them the search reports. -/
theorem insertSortedGreatestToLeast_stable_two :
    ∃ before after, [Bond.mk 1 5, ⟨2, 5⟩, ⟨3, 4⟩] = before ++ after ∧
      (∀ entry ∈ before, 5 ≤ entry.amount) ∧ (∀ entry ∈ after, entry.amount < 5) ∧
      Ranked.Descending Bond.amount (before ++ Bond.mk 4 5 :: after) ∧
      ∀ found, SearchOutcome 5 [Bond.mk 1 5, ⟨2, 5⟩, ⟨3, 4⟩] found →
        insertSortedGreatestToLeast u128Max found
            { delegations := [⟨1, 5⟩, ⟨2, 5⟩, ⟨3, 4⟩], total := 14 } ⟨4, 5⟩ =
          some { delegations := before ++ Bond.mk 4 5 :: after, total := min (14 + 5) u128Max } :=
  insertSortedGreatestToLeast_stable u128Max
    { delegations := [⟨1, 5⟩, ⟨2, 5⟩, ⟨3, 4⟩], total := 14 } ⟨4, 5⟩
    (by simp [Ranked.Descending])

/-- A total at the largest balance does not grow. -/
theorem insertSortedGreatestToLeast_saturates :
    ¬∀ (self : Delegations Nat) (delegation : Bond Nat) (found : Except Nat Nat),
      Ranked.Descending Bond.amount self.delegations →
      SearchOutcome delegation.amount self.delegations found →
      ∃ inserted, insertSortedGreatestToLeast u128Max found self delegation = some inserted ∧
        inserted.total = self.total + delegation.amount := by
  intro claimed
  obtain ⟨inserted, result, total⟩ := claimed
    { delegations := [⟨1, u128Max⟩], total := u128Max } ⟨2, 1⟩ (.error 1)
    (List.pairwise_singleton _ _)
    (.missing 1 (by simp) (by simp [u128Max]) (by simp))
  have saturated : insertSortedGreatestToLeast u128Max (.error 1)
      { delegations := [⟨1, u128Max⟩], total := u128Max } (⟨2, 1⟩ : Bond Nat) =
        some { delegations := [⟨1, u128Max⟩, ⟨2, 1⟩], total := u128Max } := by
    decide
  rw [saturated] at result
  cases result
  exact absurd total (by decide)

end Delegations.Indexed

theorem Delegations.insertSortedGreatestToLeast_indexed {maxBalance : Nat}
    {self : Delegations AccountId} {delegation : Bond AccountId}
    (descending : Ranked.Descending Bond.amount self.delegations)
    (fits : self.total + delegation.amount ≤ maxBalance) :
    Indexed.insertSortedGreatestToLeast maxBalance
        (binarySearchBy (fun entry => compare delegation.amount entry.amount) self.delegations)
        self delegation =
      some (self.insertSortedGreatestToLeast delegation) := by
  rw [Indexed.insertSortedGreatestToLeast_eq maxBalance (binarySearchBy_outcome descending),
    Nat.min_eq_left fits, insertSortedGreatestToLeast, ← insertSortedWith_total]

end Popsicle
