import Mathlib.Data.List.Sort
import Mathlib.Data.Multiset.Sort
import Popsicle.Foundation.Keyed

/-!
# Ranked lists and two-tier rankings

Entries are ordered from the greatest rank to the least.  `place` inserts after
every entry of the same or a greater rank, so equal entries keep their order of
arrival.

A two-tier ranking splits one ranked table into a top tier of bounded length and
a bottom tier that is used only when the top is full.  `Tiers` says so in a
single descending list, and one lemma for each way an entry can enter, leave or
move keeps it.
-/

namespace Foundation.Ranked

open Keyed

variable {α κ : Type} (rank : α → Nat) (key : α → κ)

/-- Ordered from the greatest rank to the least. -/
def Descending (entries : List α) : Prop :=
  entries.Pairwise fun high low => rank low ≤ rank high

/-- Insert behind every entry whose rank is not smaller. -/
def place (entry : α) (entries : List α) : List α :=
  entries.orderedInsert (fun new old => rank old < rank new) entry

/-- Sort stably from the greatest rank to the least. -/
def sort (entries : List α) : List α :=
  entries.insertionSort fun high low => rank low ≤ rank high

instance descendingTotal : Std.Total (fun high low : α => rank low ≤ rank high) :=
  ⟨fun left right => Nat.le_total (rank right) (rank left)⟩

instance descendingTrans : IsTrans α (fun high low : α => rank low ≤ rank high) :=
  ⟨fun _ _ _ upper lower => Nat.le_trans lower upper⟩

variable {rank} {key} {entry : α} {entries : List α}

theorem place_perm : (place rank entry entries).Perm (entry :: entries) :=
  List.perm_orderedInsert _ _ _

theorem sort_perm : (sort rank entries).Perm entries :=
  List.perm_insertionSort _ _

theorem coe_place :
    (place rank entry entries : Multiset α) = ([entry] : List α) + (entries : Multiset α) :=
  Multiset.coe_eq_coe.mpr place_perm

theorem coe_sort : (sort rank entries : Multiset α) = (entries : Multiset α) :=
  Multiset.coe_eq_coe.mpr sort_perm

theorem sort_descending : Descending rank (sort rank entries) :=
  List.pairwise_insertionSort _ _

theorem place_cons (head : α) (rest : List α) :
    place rank entry (head :: rest) =
      if rank head < rank entry then entry :: head :: rest else head :: place rank entry rest :=
  rfl

theorem Descending.sublist (descending : Descending rank entries) {smaller : List α}
    (sublist : smaller.Sublist entries) : Descending rank smaller :=
  List.Pairwise.sublist sublist descending

theorem mem_place {other : α} : other ∈ place rank entry entries ↔
    other = entry ∨ other ∈ entries := by
  rw [place_perm.mem_iff, List.mem_cons]

theorem Descending.place (descending : Descending rank entries) :
    Descending rank (place rank entry entries) := by
  induction entries with
  | nil => exact List.pairwise_singleton _ _
  | cons head rest ih =>
      obtain ⟨headGreatest, restDescending⟩ := List.pairwise_cons.mp descending
      rw [place_cons]
      split
      next smaller =>
        refine List.pairwise_cons.mpr ⟨?_, descending⟩
        intro other member
        rcases List.mem_cons.mp member with rfl | inRest
        · exact smaller.le
        · exact (headGreatest other inRest).trans smaller.le
      next notSmaller =>
        refine List.pairwise_cons.mpr ⟨?_, ih restDescending⟩
        intro other member
        rcases mem_place.mp member with rfl | inRest
        · exact Nat.le_of_not_lt notSmaller
        · exact headGreatest other inRest

theorem place_eq_append (least : ∀ other ∈ entries, rank entry ≤ rank other) :
    place rank entry entries = entries ++ [entry] := by
  induction entries with
  | nil => rfl
  | cons head rest ih =>
      rw [place_cons, if_neg (Nat.not_lt.mpr (least head (by simp))),
        ih fun other member => least other (by simp [member]), List.cons_append]

/-- An entry is placed between those that reach its rank and those that do not. -/
theorem Descending.place_split (descending : Descending rank entries) (entry : α) :
    ∃ before after, entries = before ++ after ∧
      Ranked.place rank entry entries = before ++ entry :: after ∧
      (∀ other ∈ before, rank entry ≤ rank other) ∧
      ∀ other ∈ after, rank other < rank entry := by
  induction entries with
  | nil => exact ⟨[], [], rfl, rfl, by simp, by simp⟩
  | cons head rest ih =>
      obtain ⟨headGreatest, restDescending⟩ := List.pairwise_cons.mp descending
      rw [place_cons]
      split
      next smaller =>
        refine ⟨[], head :: rest, rfl, rfl, by simp, ?_⟩
        intro other member
        rcases List.mem_cons.mp member with rfl | inRest
        · exact smaller
        · exact lt_of_le_of_lt (headGreatest other inRest) smaller
      next notSmaller =>
        obtain ⟨before, after, restEq, placed, reached, smaller⟩ := ih restDescending
        refine ⟨head :: before, after, by simp [restEq], by simp [placed], ?_, smaller⟩
        intro other member
        rcases List.mem_cons.mp member with rfl | inBefore
        · exact Nat.le_of_not_lt notSmaller
        · exact reached other inBefore

/-- The sum of the `count` greatest numbers of a collection. -/
def sumLargest (count : Nat) (values : Multiset Nat) : Nat :=
  ((values.sort (· ≥ ·)).take count).sum

/-- In a descending list the greatest entries are the first ones. -/
theorem Descending.sumLargest (descending : Descending rank entries) (count : Nat) :
    sumLargest count (entries.map rank : Multiset Nat) =
      ((entries.take count).map rank).sum := by
  have sorted : (entries.map rank).Pairwise (· ≥ ·) := List.pairwise_map.mpr descending
  unfold Ranked.sumLargest
  rw [Multiset.coe_sort, List.mergeSort_eq_self (· ≥ ·) sorted, List.map_take]

/-! ## Two tiers -/

variable (rank key)

/-- One ranked table with distinct keys, split into a top tier and a bottom tier
that is empty unless the top is full. -/
structure Tiers (maxTop maxBottom : Nat) (top bottom : List α) : Prop where
  descending : Descending rank (top ++ bottom)
  distinct : Distinct key (top ++ bottom)
  topLength : top.length ≤ maxTop
  bottomLength : bottom.length ≤ maxBottom
  full : bottom ≠ [] → top.length = maxTop

variable {rank key} {maxTop maxBottom : Nat} {top bottom : List α}

namespace Tiers

theorem empty : Tiers rank key maxTop maxBottom [] [] where
  descending := List.Pairwise.nil
  distinct := List.nodup_nil
  topLength := Nat.zero_le _
  bottomLength := Nat.zero_le _
  full contra := absurd rfl contra

section Facts

variable (tiers : Tiers rank key maxTop maxBottom top bottom)
include tiers

theorem topDescending : Descending rank top :=
  (List.pairwise_append.mp tiers.descending).1

theorem bottomDescending : Descending rank bottom :=
  (List.pairwise_append.mp tiers.descending).2.1

theorem bottom_le_top {high low : α} (inTop : high ∈ top) (inBottom : low ∈ bottom) :
    rank low ≤ rank high :=
  (List.pairwise_append.mp tiers.descending).2.2 high inTop low inBottom

theorem topDistinct : Distinct key top :=
  tiers.distinct.sublist (List.sublist_append_left top bottom)

theorem bottomDistinct : Distinct key bottom :=
  tiers.distinct.sublist (List.sublist_append_right top bottom)

theorem shrinkBottom {smaller : List α} (sublist : smaller.Sublist bottom) :
    Tiers rank key maxTop maxBottom top smaller where
  descending := tiers.descending.sublist (sublist.append_left top)
  distinct := tiers.distinct.sublist (sublist.append_left top)
  topLength := tiers.topLength
  bottomLength := sublist.length_le.trans tiers.bottomLength
  full nonempty := tiers.full fun isEmpty => nonempty (by
    subst isEmpty
    exact List.sublist_nil.mp sublist)

theorem last_le {init : List α} {last high : α} (split : top = init ++ [last])
    (member : high ∈ init) : rank last ≤ rank high := by
  subst split
  exact (List.pairwise_append.mp tiers.topDescending).2.2 high member last (by simp)

end Facts

theorem of_lists {table : List α} (topDescending : Descending rank top)
    (bottomDescending : Descending rank bottom)
    (above : ∀ high ∈ top, ∀ low ∈ bottom, rank low ≤ rank high)
    (distinct : Distinct key table) (perm : (top ++ bottom).Perm table)
    (topLength : top.length ≤ maxTop) (bottomLength : bottom.length ≤ maxBottom)
    (full : bottom ≠ [] → top.length = maxTop) :
    Tiers rank key maxTop maxBottom top bottom where
  descending := List.pairwise_append.mpr ⟨topDescending, bottomDescending, above⟩
  distinct := distinct.perm perm
  topLength := topLength
  bottomLength := bottomLength
  full := full

/-! ### Entering -/

theorem enterTop (tiers : Tiers rank key maxTop maxBottom top bottom)
    (fresh : Distinct key (entry :: (top ++ bottom))) (room : top.length < maxTop) :
    Tiers rank key maxTop maxBottom (place rank entry top) bottom := by
  have noBottom : bottom = [] := by
    by_contra nonempty
    exact room.ne (tiers.full nonempty)
  subst noBottom
  refine of_lists tiers.topDescending.place List.Pairwise.nil (by simp) fresh ?_ ?_ (by simp)
    (by simp)
  · exact (place_perm.append_right []).trans (by simp)
  · rw [place_perm.length_eq]
    exact room

/-- A new entry enters a full top and pushes the last one down. -/
theorem enterTopBump (tiers : Tiers rank key maxTop maxBottom top bottom)
    (fresh : Distinct key (entry :: (top ++ bottom))) {init : List α} {last : α}
    (split : top = init ++ [last]) (isFull : top.length = maxTop)
    (greater : rank last ≤ rank entry) (room : bottom.length < maxBottom) :
    Tiers rank key maxTop maxBottom (place rank entry init) (place rank last bottom) := by
  have initDescending : Descending rank init := by
    have descending := tiers.topDescending
    subst split
    exact (List.pairwise_append.mp descending).1
  refine of_lists initDescending.place tiers.bottomDescending.place ?_ fresh ?_ ?_ ?_ ?_
  · intro high inTop low inBottom
    have lastLe : rank last ≤ rank high := by
      rcases mem_place.mp inTop with rfl | inInit
      · exact greater
      · exact tiers.last_le split inInit
    rcases mem_place.mp inBottom with rfl | old
    · exact lastLe
    · exact (tiers.bottom_le_top (by simp [split]) old).trans lastLe
  · have moved : (place rank entry init ++ place rank last bottom).Perm
        (entry :: init ++ last :: bottom) := place_perm.append place_perm
    simpa [split] using moved
  · simp [place_perm.length_eq, ← isFull, split]
  · rw [place_perm.length_eq]
    exact room
  · intro _
    simp [place_perm.length_eq, ← isFull, split]

theorem enterBottom (tiers : Tiers rank key maxTop maxBottom top bottom)
    (fresh : Distinct key (entry :: (top ++ bottom))) (isFull : top.length = maxTop)
    (below : ∀ high ∈ top, rank entry ≤ rank high) (room : bottom.length < maxBottom) :
    Tiers rank key maxTop maxBottom top (place rank entry bottom) := by
  refine of_lists tiers.topDescending tiers.bottomDescending.place ?_ fresh ?_ tiers.topLength
    ?_ fun _ => isFull
  · intro high inTop low inBottom
    rcases mem_place.mp inBottom with rfl | old
    · exact below high inTop
    · exact tiers.bottom_le_top inTop old
  · exact (place_perm.append_left top).trans List.perm_middle
  · rw [place_perm.length_eq]
    exact room

/-! ### Leaving and moving -/

section Present

variable [DecidableEq κ] {query : κ}

omit [DecidableEq κ] in
theorem nil_or_cons_of_room (tiers : Tiers rank key maxTop maxBottom top bottom)
    (room : top.length < maxTop) : bottom = [] := by
  by_contra nonempty
  exact room.ne (tiers.full nonempty)

theorem leaveTop (tiers : Tiers rank key maxTop maxBottom top []) :
    Tiers rank key maxTop maxBottom (erase key top query) [] where
  descending := tiers.descending.sublist ((erase_sublist top query).append_right [])
  distinct := tiers.distinct.sublist ((erase_sublist top query).append_right [])
  topLength := (erase_sublist top query).length_le.trans tiers.topLength
  bottomLength := Nat.zero_le _
  full contra := absurd rfl contra

/-- An entry leaves the top and the first of the bottom takes its place. -/
theorem leaveTopRefill {first : α} {rest : List α}
    (tiers : Tiers rank key maxTop maxBottom top (first :: rest))
    (found : lookup key top query = some entry) :
    Tiers rank key maxTop maxBottom (place rank first (erase key top query)) rest := by
  have above : ∀ high ∈ erase key top query, rank first ≤ rank high := by
    intro high member
    exact tiers.bottom_le_top (mem_erase.mp member).1 (by simp)
  have sublist : (erase key top query ++ first :: rest).Sublist (top ++ first :: rest) :=
    (erase_sublist top query).append_right _
  have topFull := tiers.full (by simp)
  have shorter := tiers.topDistinct.length_erase found
  rw [place_eq_append above]
  refine
    { descending := ?_, distinct := ?_, topLength := ?_, bottomLength := ?_, full := ?_ }
  · simpa using tiers.descending.sublist sublist
  · simpa using tiers.distinct.sublist sublist
  · simp only [List.length_append, List.length_singleton]
    omega
  · have bound := tiers.bottomLength
    simp only [List.length_cons] at bound
    omega
  · intro _
    simp only [List.length_append, List.length_singleton]
    omega

theorem leaveBottom (tiers : Tiers rank key maxTop maxBottom top bottom) :
    Tiers rank key maxTop maxBottom top (erase key bottom query) :=
  tiers.shrinkBottom (erase_sublist bottom query)

variable (change : α → α)

/-- An entry of the top changes its rank and stays above the bottom. -/
theorem adjustTop (tiers : Tiers rank key maxTop maxBottom top bottom)
    (keeps : ∀ entry, key (change entry) = key entry)
    (found : lookup key top query = some entry)
    (above : ∀ low ∈ bottom, rank low ≤ rank (change entry)) :
    Tiers rank key maxTop maxBottom (sort rank (adjust key top query change)) bottom := by
  have perm := tiers.topDistinct.adjust_perm change keeps found
  have length : (sort rank (adjust key top query change)).length = top.length := by
    rw [sort_perm.length_eq, Keyed.adjust, List.length_map]
  refine
    { descending := ?_, distinct := ?_, topLength := ?_, bottomLength := tiers.bottomLength
      full := ?_ }
  · refine List.pairwise_append.mpr ⟨sort_descending, tiers.bottomDescending, ?_⟩
    intro high inTop low inBottom
    rcases List.mem_cons.mp ((sort_perm.trans perm).mem_iff.mp inTop) with rfl | old
    · exact above low inBottom
    · exact tiers.bottom_le_top (mem_erase.mp old).1 inBottom
  · have keys : ((sort rank (adjust key top query change) ++ bottom).map key).Perm
        ((top ++ bottom).map key) := by
      rw [List.map_append, List.map_append, ← map_key_adjust top change keeps]
      exact (sort_perm.map key).append_right _
    exact keys.nodup_iff.mpr tiers.distinct
  · rw [length]
    exact tiers.topLength
  · intro nonempty
    rw [length]
    exact tiers.full nonempty

/-- An entry of the bottom changes its rank and stays below the top. -/
theorem adjustBottom (tiers : Tiers rank key maxTop maxBottom top bottom)
    (keeps : ∀ entry, key (change entry) = key entry)
    (found : lookup key bottom query = some entry)
    (below : ∀ high ∈ top, rank (change entry) ≤ rank high) :
    Tiers rank key maxTop maxBottom top (sort rank (adjust key bottom query change)) := by
  have perm := tiers.bottomDistinct.adjust_perm change keeps found
  have length : (sort rank (adjust key bottom query change)).length = bottom.length := by
    rw [sort_perm.length_eq, Keyed.adjust, List.length_map]
  refine
    { descending := ?_, distinct := ?_, topLength := tiers.topLength, bottomLength := ?_
      full := ?_ }
  · refine List.pairwise_append.mpr ⟨tiers.topDescending, sort_descending, ?_⟩
    intro high inTop low inBottom
    rcases List.mem_cons.mp ((sort_perm.trans perm).mem_iff.mp inBottom) with rfl | old
    · exact below high inTop
    · exact tiers.bottom_le_top inTop (mem_erase.mp old).1
  · have keys : ((top ++ sort rank (adjust key bottom query change)).map key).Perm
        ((top ++ bottom).map key) := by
      rw [List.map_append, List.map_append, ← map_key_adjust bottom change keeps]
      exact (sort_perm.map key).append_left _
    exact keys.nodup_iff.mpr tiers.distinct
  · rw [length]
    exact tiers.bottomLength
  · intro nonempty
    apply tiers.full
    intro isEmpty
    subst isEmpty
    simp at found

/-- An entry of the bottom grows past the last of a full top and swaps with it. -/
theorem promote (tiers : Tiers rank key maxTop maxBottom top bottom)
    (keeps : key (change entry) = key entry)
    (found : lookup key bottom query = some entry) {init : List α} {last : α}
    (split : top = init ++ [last]) (greater : rank last ≤ rank (change entry)) :
    Tiers rank key maxTop maxBottom (place rank (change entry) init)
      (place rank last (erase key bottom query)) := by
  have isFull : top.length = maxTop := tiers.full (by
    intro isEmpty
    subst isEmpty
    simp at found)
  have shorter := tiers.bottomDistinct.length_erase found
  have bound := tiers.bottomLength
  have fresh : Distinct key (change entry :: (top ++ erase key bottom query)) := by
    have moved : Distinct key (entry :: (top ++ erase key bottom query)) :=
      tiers.distinct.perm (List.perm_middle.symm.trans
        ((tiers.bottomDistinct.perm_cons_erase found).symm.append_left top))
    simpa [Distinct, keeps] using moved
  exact tiers.leaveBottom.enterTopBump fresh split isFull greater (by omega)

/-- An entry of the top shrinks below the first of the bottom and swaps with it. -/
theorem demote {first : α} {rest : List α}
    (tiers : Tiers rank key maxTop maxBottom top (first :: rest))
    (keeps : key (change entry) = key entry)
    (found : lookup key top query = some entry)
    (smaller : rank (change entry) ≤ rank first) :
    Tiers rank key maxTop maxBottom (place rank first (erase key top query))
      (place rank (change entry) rest) := by
  have isFull := tiers.full (by simp)
  have refilled := tiers.leaveTopRefill found
  have shorter := tiers.topDistinct.length_erase found
  have bound := tiers.bottomLength
  simp only [List.length_cons] at bound
  have fresh : Distinct key
      (change entry :: (place rank first (erase key top query) ++ rest)) := by
    have perm : (entry :: (place rank first (erase key top query) ++ rest)).Perm
        (top ++ first :: rest) :=
      ((place_perm.append_right rest).cons entry).trans
        ((List.Perm.swap first entry _).trans
          ((((tiers.topDistinct.perm_cons_erase found).symm.append_right rest).cons first).trans
            List.perm_middle.symm))
    have moved := tiers.distinct.perm perm
    simpa [Distinct, keeps] using moved
  refine refilled.enterBottom fresh ?_ ?_ (by omega)
  · rw [place_perm.length_eq, List.length_cons]
    omega
  · intro high member
    rcases mem_place.mp member with rfl | old
    · exact smaller
    · exact smaller.trans (tiers.bottom_le_top (mem_erase.mp old).1 (by simp))

end Present

end Tiers

end Foundation.Ranked
