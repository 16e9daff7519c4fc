import Mathlib.Algebra.GroupWithZero.Nat
import Mathlib.Data.List.Nodup
import Mathlib.Data.List.Perm.Basic
import Mathlib.Data.List.Pairwise
import Mathlib.Algebra.BigOperators.Group.List.Basic
import Mathlib.Algebra.BigOperators.Group.Multiset.Basic

/-!
# Lists whose elements carry an identifying key

Many records store a small table as a plain list in which every key occurs at
most once.  This module gives such a list the operations of a table (lookup,
removal and replacement by key) and describes each by its effect on lookups and
on sums over the list, so that callers never look at positions.
-/

namespace Foundation.Keyed

variable {α κ : Type} (key : α → κ)

/-- Every key occurs at most once. -/
def Distinct (entries : List α) : Prop := (entries.map key).Nodup

variable [DecidableEq κ]

/-- The entry stored under a key. -/
def lookup (entries : List α) (query : κ) : Option α :=
  entries.find? fun entry => key entry = query

/-- The last entry stored under a key. -/
def lookupLast (entries : List α) (query : κ) : Option α :=
  lookup key entries.reverse query

/-- All entries stored under a key. -/
def select (entries : List α) (query : κ) : List α :=
  entries.filter fun entry => key entry = query

/-- The entries stored under any other key. -/
def erase (entries : List α) (query : κ) : List α :=
  entries.filter fun entry => key entry ≠ query

/-- Rewrite the entry stored under a key in place. -/
def adjust (entries : List α) (query : κ) (change : α → α) : List α :=
  entries.map fun entry => if key entry = query then change entry else entry

variable {key} {entries : List α} {query : κ}

/-! ## Lookups -/

@[simp] theorem lookup_nil : lookup key [] query = none := rfl

theorem lookup_cons (entry : α) :
    lookup key (entry :: entries) query =
      if key entry = query then some entry else lookup key entries query := by
  by_cases equal : key entry = query <;> simp [lookup, equal]

theorem mem_of_lookup {entry : α} (found : lookup key entries query = some entry) :
    entry ∈ entries :=
  List.mem_of_find?_eq_some found

theorem key_of_lookup {entry : α} (found : lookup key entries query = some entry) :
    key entry = query := by
  have accepted := List.find?_some found
  simpa using accepted

theorem lookup_eq_none :
    lookup key entries query = none ↔ ∀ entry ∈ entries, key entry ≠ query := by
  simp [lookup]

theorem Distinct.lookup_of_mem (distinct : Distinct key entries) {entry : α}
    (member : entry ∈ entries) : lookup key entries (key entry) = some entry := by
  induction entries with
  | nil => cases member
  | cons head rest ih =>
      obtain ⟨fresh, restDistinct⟩ := List.nodup_cons.mp distinct
      rw [lookup_cons]
      rcases List.mem_cons.mp member with rfl | inRest
      · simp
      · have different : key head ≠ key entry := by
          intro equal
          exact fresh (equal ▸ List.mem_map_of_mem inRest)
        rw [if_neg different]
        exact ih restDistinct inRest

theorem Distinct.lookup_eq_some (distinct : Distinct key entries) {entry : α} :
    lookup key entries query = some entry ↔ entry ∈ entries ∧ key entry = query := by
  constructor
  · intro found
    exact ⟨mem_of_lookup found, key_of_lookup found⟩
  · rintro ⟨member, rfl⟩
    exact distinct.lookup_of_mem member

theorem lookup_isSome :
    (lookup key entries query).isSome = true ↔ query ∈ entries.map key := by
  simp [lookup]

theorem Distinct.lookup_perm (distinct : Distinct key entries) {reordered : List α}
    (perm : reordered.Perm entries) (query : κ) :
    lookup key reordered query = lookup key entries query := by
  have reorderedDistinct : Distinct key reordered :=
    ((perm.map key).nodup_iff).mpr distinct
  ext entry
  rw [reorderedDistinct.lookup_eq_some, distinct.lookup_eq_some, perm.mem_iff]

/-- With distinct keys, the first entry of a key is the last one. -/
theorem Distinct.lookupLast (distinct : Distinct key entries) (query : κ) :
    lookupLast key entries query = lookup key entries query :=
  distinct.lookup_perm (List.reverse_perm entries) query

omit [DecidableEq κ] in
theorem Distinct.perm {reordered : List α} (distinct : Distinct key entries)
    (perm : reordered.Perm entries) : Distinct key reordered :=
  ((perm.map key).nodup_iff).mpr distinct

omit [DecidableEq κ] in
theorem Distinct.sublist {smaller : List α} (distinct : Distinct key entries)
    (sublist : smaller.Sublist entries) : Distinct key smaller :=
  List.Nodup.sublist (sublist.map key) distinct

theorem Distinct.cons (distinct : Distinct key entries) {entry : α}
    (fresh : lookup key entries (key entry) = none) : Distinct key (entry :: entries) := by
  rw [lookup_eq_none] at fresh
  refine List.nodup_cons.mpr ⟨?_, distinct⟩
  rw [List.mem_map]
  rintro ⟨other, member, same⟩
  exact fresh other member same

theorem Distinct.perm_of_lookup {other : List α} (distinct : Distinct key entries)
    (otherDistinct : Distinct key other)
    (same : ∀ query, lookup key entries query = lookup key other query) :
    entries.Perm other := by
  rw [List.perm_ext_iff_of_nodup distinct.of_map otherDistinct.of_map]
  intro entry
  constructor
  · intro member
    have found := distinct.lookup_of_mem member
    rw [same] at found
    exact mem_of_lookup found
  · intro member
    have found := otherDistinct.lookup_of_mem member
    rw [← same] at found
    exact mem_of_lookup found

/-! ## Removal -/

theorem lookup_erase (entries : List α) (removed query : κ) :
    lookup key (erase key entries removed) query =
      if query = removed then none else lookup key entries query := by
  induction entries with
  | nil => simp [erase]
  | cons head rest ih =>
      by_cases drop : key head = removed
      · have skip : erase key (head :: rest) removed = erase key rest removed := by
          simp [erase, drop]
        rw [skip, ih, lookup_cons]
        by_cases equal : query = removed
        · simp [equal]
        · have different : key head ≠ query := fun same => equal (same ▸ drop)
          simp [equal, different]
      · have keep : erase key (head :: rest) removed = head :: erase key rest removed := by
          simp [erase, drop]
        rw [keep, lookup_cons, lookup_cons, ih]
        by_cases equal : query = removed
        · subst query
          simp [drop]
        · simp [equal]

theorem erase_sublist (entries : List α) (removed : κ) :
    (erase key entries removed).Sublist entries :=
  List.filter_sublist

theorem Distinct.erase (distinct : Distinct key entries) (removed : κ) :
    Distinct key (erase key entries removed) :=
  distinct.sublist (erase_sublist entries removed)

theorem erase_eq_self (absent : lookup key entries query = none) :
    erase key entries query = entries := by
  rw [lookup_eq_none] at absent
  simpa [erase] using absent

theorem mem_erase {entry : α} :
    entry ∈ erase key entries query ↔ entry ∈ entries ∧ key entry ≠ query := by
  simp [erase]

theorem Distinct.perm_cons_erase (distinct : Distinct key entries) {entry : α}
    (found : lookup key entries query = some entry) :
    entries.Perm (entry :: Keyed.erase key entries query) := by
  induction entries with
  | nil => simp at found
  | cons head rest ih =>
      obtain ⟨fresh, restDistinct⟩ := List.nodup_cons.mp distinct
      rw [lookup_cons] at found
      by_cases equal : key head = query
      · rw [if_pos equal, Option.some.injEq] at found
        subst entry
        have absent : lookup key rest query = none := by
          rw [lookup_eq_none]
          intro other member same
          exact fresh (equal.trans same.symm ▸ List.mem_map_of_mem member)
        have kept : Keyed.erase key (head :: rest) query = rest := by
          have restKept := erase_eq_self absent
          simpa [Keyed.erase, equal] using restKept
        rw [kept]
      · rw [if_neg equal] at found
        have kept : Keyed.erase key (head :: rest) query =
            head :: Keyed.erase key rest query := by
          simp [Keyed.erase, equal]
        rw [kept]
        exact ((ih restDistinct found).cons head).trans (List.Perm.swap entry head _)

theorem Distinct.sum_erase (distinct : Distinct key entries) {entry : α}
    (found : lookup key entries query = some entry) (measure : α → Nat) :
    (entries.map measure).sum =
      measure entry + ((Keyed.erase key entries query).map measure).sum := by
  have sums := ((distinct.perm_cons_erase found).map measure).sum_eq
  simpa using sums

theorem Distinct.length_erase (distinct : Distinct key entries) {entry : α}
    (found : lookup key entries query = some entry) :
    (Keyed.erase key entries query).length + 1 = entries.length := by
  simpa using (distinct.perm_cons_erase found).length_eq.symm

theorem Distinct.select (distinct : Distinct key entries) {entry : α}
    (found : lookup key entries query = some entry) :
    Keyed.select key entries query = [entry] := by
  have moved := (distinct.perm_cons_erase found).filter fun other => key other = query
  have others : (Keyed.erase key entries query).filter (fun other => key other = query) = [] := by
    rw [List.filter_eq_nil_iff]
    intro other member
    simpa using (mem_erase.mp member).2
  rw [List.filter_cons_of_pos (by simpa using key_of_lookup found), others] at moved
  exact List.perm_singleton.mp moved

theorem select_eq_nil (absent : lookup key entries query = none) :
    Keyed.select key entries query = [] := by
  rw [lookup_eq_none] at absent
  simpa [Keyed.select] using absent

/-! ## Replacement -/

theorem map_key_adjust (entries : List α) (change : α → α)
    (keeps : ∀ entry, key (change entry) = key entry) :
    (adjust key entries query change).map key = entries.map key := by
  simp only [adjust, List.map_map]
  apply List.map_congr_left
  intro entry _
  by_cases equal : key entry = query <;> simp [equal, keeps]

theorem Distinct.adjust (distinct : Distinct key entries) (change : α → α)
    (keeps : ∀ entry, key (change entry) = key entry) :
    Distinct key (adjust key entries query change) := by
  unfold Distinct
  rw [map_key_adjust entries change keeps]
  exact distinct

theorem lookup_adjust (entries : List α) (change : α → α)
    (keeps : ∀ entry, key (change entry) = key entry) (changed query : κ) :
    lookup key (adjust key entries changed change) query =
      if query = changed then (lookup key entries query).map change
      else lookup key entries query := by
  induction entries with
  | nil => simp [adjust]
  | cons head rest ih =>
      have unfolded : adjust key (head :: rest) changed change =
          (if key head = changed then change head else head) ::
            adjust key rest changed change := rfl
      rw [unfolded, lookup_cons, lookup_cons, ih]
      by_cases hit : key head = changed
      · by_cases equal : query = changed
        · subst equal
          simp [hit, keeps]
        · have different : key head ≠ query := fun same => equal (same ▸ hit)
          simp [equal, keeps, hit, Ne.symm equal]
      · by_cases equal : query = changed
        · subst equal
          simp [hit]
        · simp [hit, equal]

/-- Replacing an entry is removing the old one and adding the new one, up to order. -/
theorem Distinct.adjust_perm (distinct : Distinct key entries) {entry : α} (change : α → α)
    (keeps : ∀ entry, key (change entry) = key entry)
    (found : lookup key entries query = some entry) :
    (Keyed.adjust key entries query change).Perm
      (change entry :: Keyed.erase key entries query) := by
  have adjusted : lookup key (Keyed.adjust key entries query change) query =
      some (change entry) := by
    rw [lookup_adjust entries change keeps, if_pos rfl, found]
    rfl
  have moved := (distinct.adjust change keeps).perm_cons_erase adjusted
  have same : Keyed.erase key (Keyed.adjust key entries query change) query =
      Keyed.erase key entries query := by
    clear adjusted moved found distinct
    induction entries with
    | nil => rfl
    | cons head rest ih =>
        by_cases equal : key head = query
        · simpa [Keyed.erase, Keyed.adjust, equal, keeps] using ih
        · simpa [Keyed.erase, Keyed.adjust, equal] using ih
  rwa [same] at moved

/-- Replacing an entry moves a sum by the difference of the two shares. -/
theorem Distinct.sum_adjust (distinct : Distinct key entries) {entry : α} (change : α → α)
    (keeps : ∀ entry, key (change entry) = key entry)
    (found : lookup key entries query = some entry) (measure : α → Nat) :
    ((Keyed.adjust key entries query change).map measure).sum + measure entry =
      (entries.map measure).sum + measure (change entry) := by
  have adjusted := ((distinct.adjust_perm change keeps found).map measure).sum_eq
  rw [distinct.sum_erase found measure, adjusted, List.map_cons, List.sum_cons]
  omega

/-! ## Exchanging entries -/

/-- One table arises from another by taking some entries out and putting others
in, up to order. -/
def Exchanged (olds news before after : List α) : Prop :=
  ∃ rest : Multiset α, (before : Multiset α) = olds + rest ∧ (after : Multiset α) = news + rest

theorem Distinct.coe_eq_add_erase (distinct : Distinct key entries) {entry : α}
    (found : lookup key entries query = some entry) :
    (entries : Multiset α) = ([entry] : List α) + (Keyed.erase key entries query : List α) :=
  Multiset.coe_eq_coe.mpr (distinct.perm_cons_erase found)

theorem Distinct.coe_adjust (distinct : Distinct key entries) {entry : α} (change : α → α)
    (keeps : ∀ entry, key (change entry) = key entry)
    (found : lookup key entries query = some entry) :
    (Keyed.adjust key entries query change : Multiset α) =
      ([change entry] : List α) + (Keyed.erase key entries query : List α) :=
  Multiset.coe_eq_coe.mpr (distinct.adjust_perm change keeps found)

namespace Exchanged

variable {olds news before after : List α}

omit [DecidableEq κ] in
theorem sum_map (exchanged : Exchanged olds news before after) (measure : α → Nat) :
    (after.map measure).sum + (olds.map measure).sum =
      (before.map measure).sum + (news.map measure).sum := by
  obtain ⟨rest, taken, put⟩ := exchanged
  have afterSum := congrArg (fun entries => (entries.map measure).sum) put
  have beforeSum := congrArg (fun entries => (entries.map measure).sum) taken
  simp only [Multiset.map_add, Multiset.sum_add, Multiset.map_coe, Multiset.sum_coe]
    at afterSum beforeSum
  omega

omit [DecidableEq κ] in
theorem length (exchanged : Exchanged olds news before after) :
    after.length + olds.length = before.length + news.length := by
  simpa using exchanged.sum_map fun _ => 1

omit [DecidableEq κ] in
theorem mem_after (exchanged : Exchanged olds news before after) {entry : α}
    (member : entry ∈ news) : entry ∈ after := by
  obtain ⟨rest, _, put⟩ := exchanged
  rw [← Multiset.mem_coe, put]
  exact Multiset.mem_add.mpr (.inl (Multiset.mem_coe.mpr member))

omit [DecidableEq κ] in
theorem mem_before (exchanged : Exchanged olds news before after) {entry : α}
    (member : entry ∈ olds) : entry ∈ before := by
  obtain ⟨rest, taken, _⟩ := exchanged
  rw [← Multiset.mem_coe, taken]
  exact Multiset.mem_add.mpr (.inl (Multiset.mem_coe.mpr member))

theorem lookup_of_ne (exchanged : Exchanged olds news before after)
    (distinctBefore : Distinct key before) (distinctAfter : Distinct key after)
    (notOld : ∀ entry ∈ olds, key entry ≠ query) (notNew : ∀ entry ∈ news, key entry ≠ query) :
    lookup key after query = lookup key before query := by
  obtain ⟨rest, taken, put⟩ := exchanged
  ext entry
  rw [distinctAfter.lookup_eq_some, distinctBefore.lookup_eq_some]
  refine and_congr_left fun equal => ?_
  rw [← Multiset.mem_coe, ← Multiset.mem_coe, put, taken, Multiset.mem_add, Multiset.mem_add]
  constructor
  · rintro (isNew | isRest)
    · exact absurd equal (notNew entry (Multiset.mem_coe.mp isNew))
    · exact .inr isRest
  · rintro (isOld | isRest)
    · exact absurd equal (notOld entry (Multiset.mem_coe.mp isOld))
    · exact .inr isRest

theorem lookup_gone (exchanged : Exchanged olds news before after)
    (distinctBefore : Distinct key before) {entry : α} (member : entry ∈ olds)
    (notNew : ∀ other ∈ news, key other ≠ key entry) :
    lookup key after (key entry) = none := by
  obtain ⟨rest, taken, put⟩ := exchanged
  rw [lookup_eq_none]
  intro other inAfter same
  rw [← Multiset.mem_coe, put, Multiset.mem_add] at inAfter
  rcases inAfter with isNew | isRest
  · exact notNew other (Multiset.mem_coe.mp isNew) same
  · obtain ⟨others, split⟩ := Multiset.exists_cons_of_mem (Multiset.mem_coe.mpr member)
    obtain ⟨remaining, restSplit⟩ := Multiset.exists_cons_of_mem isRest
    have keys : ((before : Multiset α).map key).Nodup := by
      simpa [Distinct] using distinctBefore
    rw [taken, split, restSplit] at keys
    simp [same] at keys

/-- After one entry has come in, perhaps for another one, its key finds it and the key of
the other one finds nothing. -/
theorem lookup_replaced {out : Option α} {entry : α}
    (exchanged : Exchanged out.toList [entry] before after)
    (distinctBefore : Distinct key before) (distinctAfter : Distinct key after) (query : κ) :
    lookup key after query =
      if query = key entry then some entry
      else if out.map key = some query then none
      else lookup key before query := by
  by_cases isNew : query = key entry
  · rw [if_pos isNew, isNew]
    exact distinctAfter.lookup_of_mem (exchanged.mem_after (List.mem_singleton_self entry))
  · rw [if_neg isNew]
    have notNew : ∀ other ∈ [entry], key other ≠ query := by
      intro other member same
      rw [List.mem_singleton.mp member] at same
      exact isNew same.symm
    by_cases isOld : out.map key = some query
    · rw [if_pos isOld]
      obtain ⟨old, rfl, rfl⟩ := Option.map_eq_some_iff.mp isOld
      exact exchanged.lookup_gone distinctBefore (by simp) notNew
    · rw [if_neg isOld]
      refine exchanged.lookup_of_ne distinctBefore distinctAfter ?_ notNew
      intro other member same
      rw [Option.mem_toList] at member
      apply isOld
      rw [member, Option.map_some, same]

end Exchanged

end Foundation.Keyed
