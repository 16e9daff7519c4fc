import Popsicle.Foundation.Ranked

/-!
# The best entries of a contest

Entries arrive one after the other, and only the `count` greatest are kept: a new entry
is added while there is room, and then it is refused or takes the place of the least.
Where no two ranks are equal, what is kept in the end does not depend on the order of
arrival.
-/

namespace Foundation.Ranked

open Keyed

variable {α : Type} (rank : α → Nat)

/-- The `count` greatest entries, from the greatest to the least. -/
def best (count : Nat) (entries : List α) : List α := (sort rank entries).take count

/-- The leaders are at most `count` of the entries, and no other entry is greater; there
are no others while there is room. -/
structure Leads (count : Nat) (entries leaders : List α) : Prop where
  descending : Descending rank leaders
  atMost : leaders.length ≤ count
  split : ∃ others, (leaders ++ others).Perm entries ∧
    (∀ high ∈ leaders, ∀ low ∈ others, rank low ≤ rank high) ∧
    (others ≠ [] → leaders.length = count)

variable {rank} {count : Nat} {entries leaders after : List α} {entry out : α}

theorem Leads.nil : Leads rank count [] [] :=
  ⟨List.Pairwise.nil, Nat.zero_le _, [], by simp⟩

theorem Leads.subset (leads : Leads rank count entries leaders) : leaders ⊆ entries := by
  obtain ⟨others, perm, _, _⟩ := leads.split
  intro leader leading
  exact perm.subset (List.mem_append_left others leading)

theorem Leads.length_le (leads : Leads rank count entries leaders) :
    leaders.length ≤ entries.length := by
  obtain ⟨others, perm, _, _⟩ := leads.split
  rw [← perm.length_eq, List.length_append]
  exact Nat.le_add_right _ _

theorem Leads.enter (leads : Leads rank count entries leaders) (descending : Descending rank after)
    (atMost : after.length ≤ count) (exchanged : Exchanged [] [entry] leaders after) :
    Leads rank count (entries ++ [entry]) after := by
  obtain ⟨others, perm, _, full⟩ := leads.split
  have length := exchanged.length
  simp only [List.length_nil, List.length_singleton] at length
  have noOthers : others = [] := by
    by_contra nonempty
    have isFull := full nonempty
    omega
  subst noOthers
  rw [List.append_nil] at perm
  obtain ⟨rest, isBefore, isAfter⟩ := exchanged
  have arrived : after.Perm (entry :: leaders) := by
    rw [← Multiset.coe_eq_coe, isAfter, ← Multiset.cons_coe entry leaders, isBefore]
    simp
  refine ⟨descending, atMost, [], ?_, by simp, by simp⟩
  rw [List.append_nil]
  exact arrived.trans ((perm.cons entry).trans (List.perm_append_singleton entry entries).symm)

/-- An entry that is not greater than any of the leaders is refused when there is no room. -/
theorem Leads.refuse (leads : Leads rank count entries leaders) (isFull : leaders.length = count)
    (below : ∀ high ∈ leaders, rank entry ≤ rank high) :
    Leads rank count (entries ++ [entry]) leaders := by
  obtain ⟨others, perm, above, _⟩ := leads.split
  refine ⟨leads.descending, leads.atMost, others ++ [entry], ?_, ?_, fun _ => isFull⟩
  · rw [← List.append_assoc]
    exact perm.append_right [entry]
  · intro high leading low other
    rcases List.mem_append.mp other with isOld | isNew
    · exact above high leading low isOld
    · rw [List.mem_singleton.mp isNew]
      exact below high leading

/-- An entry that is not less than the least of the leaders takes its place when there is
no room. -/
theorem Leads.replace (leads : Leads rank count entries leaders)
    (descending : Descending rank after) (isFull : leaders.length = count)
    (exchanged : Exchanged [out] [entry] leaders after)
    (least : ∀ high ∈ leaders, rank out ≤ rank high) (greater : rank out ≤ rank entry) :
    Leads rank count (entries ++ [entry]) after := by
  obtain ⟨others, perm, above, _⟩ := leads.split
  have length := exchanged.length
  have wasLeading := exchanged.mem_before (List.mem_singleton_self out)
  simp only [List.length_singleton] at length
  obtain ⟨rest, isBefore, isAfter⟩ := exchanged
  refine ⟨descending, by omega, out :: others, ?_, ?_, fun _ => by omega⟩
  · have counted := Multiset.coe_eq_coe.mpr perm
    rw [← Multiset.coe_add, isBefore] at counted
    rw [← Multiset.coe_eq_coe, ← Multiset.coe_add, ← Multiset.coe_add, isAfter, ← counted]
    simp only [← Multiset.cons_coe, Multiset.coe_nil, ← Multiset.singleton_add]
    ac_rfl
  · have kept : ∀ high ∈ after, high = entry ∨ high ∈ leaders := by
      intro high member
      rw [← Multiset.mem_coe, isAfter, Multiset.mem_add] at member
      refine member.imp (fun isNew => by simpa using isNew) fun isRest => ?_
      rw [← Multiset.mem_coe, isBefore, Multiset.mem_add]
      exact .inr isRest
    intro high member low other
    have aboveOut : rank out ≤ rank high := by
      rcases kept high member with rfl | wasLeader
      · exact greater
      · exact least high wasLeader
    rcases List.mem_cons.mp other with rfl | isOld
    · exact aboveOut
    · exact (above out wasLeading low isOld).trans aboveOut

/-- Lists without equal ranks are the same if they are descending and have the same entries. -/
theorem Descending.eq_of_perm {others : List α} (descending : Descending rank entries)
    (descendingOthers : Descending rank others) (perm : entries.Perm others)
    (distinct : Distinct rank entries) : entries = others := by
  refine List.Perm.eq_of_pairwise ?_ descending descendingOthers perm
  intro left right inEntries inOthers lower upper
  exact List.inj_on_of_nodup_map distinct inEntries (perm.mem_iff.mpr inOthers)
    (le_antisymm upper lower)

theorem Leads.eq_best (leads : Leads rank count entries leaders)
    (distinct : Distinct rank entries) :
    leaders = best rank count entries := by
  obtain ⟨others, perm, above, full⟩ := leads.split
  have descending : Descending rank (leaders ++ sort rank others) := by
    refine List.pairwise_append.mpr ⟨leads.descending, sort_descending, ?_⟩
    intro high leading low other
    exact above high leading low (sort_perm.mem_iff.mp other)
  have sorted : sort rank entries = leaders ++ sort rank others := by
    refine sort_descending.eq_of_perm descending ?_ (distinct.perm sort_perm)
    exact sort_perm.trans (perm.symm.trans (sort_perm.symm.append_left leaders))
  rw [best, sorted]
  rcases List.eq_nil_or_concat others with rfl | ⟨init, last, rfl⟩
  · rw [show sort rank ([] : List α) = [] from rfl, List.append_nil]
    exact (List.take_of_length_le leads.atMost).symm
  · exact (List.take_left' (full (by simp))).symm

theorem best_perm {others : List α} (distinct : Distinct rank entries)
    (perm : entries.Perm others) : best rank count entries = best rank count others := by
  have sorted : sort rank entries = sort rank others :=
    sort_descending.eq_of_perm sort_descending (sort_perm.trans (perm.trans sort_perm.symm))
      (distinct.perm sort_perm)
  rw [best, best, sorted]

end Foundation.Ranked
