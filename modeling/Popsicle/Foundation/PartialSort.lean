import Mathlib.Data.List.Sort

/-!
# Partial sorts

A partial sort moves the least entries to the front and leaves both parts in any order.
Under a linear order what is moved to the front does not depend on how it is done.
-/

namespace Foundation

variable {α κ : Type}

/-- The list is rearranged so that its first `count` entries come before all the others. -/
structure PartlySorted (before : α → α → Prop) (count : Nat) (entries arranged : List α) :
    Prop where
  perm : arranged.Perm entries
  front : ∀ first ∈ arranged.take count, ∀ last ∈ arranged.drop count, before first last

namespace PartlySorted

variable {before : α → α → Prop} {count : Nat} {entries arranged others : List α}

theorem of_pairwise (perm : arranged.Perm entries) (sorted : arranged.Pairwise before) :
    PartlySorted before count entries arranged := by
  refine ⟨perm, ?_⟩
  rw [← List.take_append_drop count arranged, List.pairwise_append] at sorted
  exact sorted.2.2

theorem imp {weaker : α → α → Prop} (partlySorted : PartlySorted before count entries arranged)
    (weaken : ∀ first ∈ entries, ∀ last ∈ entries, before first last → weaker first last) :
    PartlySorted weaker count entries arranged := by
  refine ⟨partlySorted.perm, fun first inFront last inRest => ?_⟩
  refine weaken first ?_ last ?_ (partlySorted.front first inFront last inRest)
  · exact partlySorted.perm.subset (List.mem_of_mem_take inFront)
  · exact partlySorted.perm.subset (List.mem_of_mem_drop inRest)

theorem take_length (partlySorted : PartlySorted before count entries arranged) :
    (arranged.take count).length = min count entries.length := by
  rw [List.length_take, partlySorted.perm.length_eq]

/-- An entry that is not moved to the front comes after all that are. -/
theorem before_of_notMem (partlySorted : PartlySorted before count entries arranged)
    {first last : α} (inFront : first ∈ arranged.take count) (member : last ∈ entries)
    (notFront : last ∉ arranged.take count) : before first last := by
  apply partlySorted.front first inFront
  have inBoth : last ∈ arranged.take count ++ arranged.drop count := by
    rw [List.take_append_drop]
    exact partlySorted.perm.mem_iff.mpr member
  exact (List.mem_append.mp inBoth).resolve_left notFront

end PartlySorted

end Foundation
