import Popsicle.Foundation.Ranked

/-!
# First come, first served in two ranked lists

Entries of equal rank are kept in the order of their arrival by a list into which they are
placed one after the other.  Where the last entry of a full first list moves on to a second
one, it is placed there behind entries of its rank that arrived later.  `InOrder` says what
is left of the order, and `Admits.inOrder_kicked_iff` when the last entry of the second list
is the latest of its rank.
-/

namespace Foundation.Ranked

variable {α : Type} {rank : α → Nat}

/-- A list with room for one more entry, perhaps after its last one has been dropped. -/
inductive Yields (count : Nat) : List α → Option α → List α → Prop where
  | room {entries : List α} (short : entries.length < count) : Yields count entries none entries
  | kick {rest : List α} {last : α} (isFull : (rest ++ [last]).length = count) :
      Yields count (rest ++ [last]) (some last) rest

/-- An entry is placed in the first list if it has room or if its last entry is less, which
then moves on to the second list; otherwise the entry is placed in the second list. -/
inductive Admits (rank : α → Nat) (maxTop maxBottom : Nat) (entry : α) :
    List α → List α → Option α → List α → List α → Prop where
  | top {top : List α} (short : top.length < maxTop) :
      Admits rank maxTop maxBottom entry top [] none (place rank entry top) []
  | bump {init bottom rest : List α} {last : α} {kicked : Option α}
      (isFull : (init ++ [last]).length = maxTop) (greater : rank last < rank entry)
      (yields : Yields maxBottom bottom kicked rest) :
      Admits rank maxTop maxBottom entry (init ++ [last]) bottom kicked
        (place rank entry init) (place rank last rest)
  | bottom {top bottom rest : List α} {kicked : Option α} (isFull : top.length = maxTop)
      (below : ∀ high ∈ top, rank entry ≤ rank high)
      (yields : Yields maxBottom bottom kicked rest)
      (greater : ∀ low, kicked = some low → rank low < rank entry) :
      Admits rank maxTop maxBottom entry top bottom kicked top (place rank entry rest)

theorem Yields.sublist {count : Nat} {entries rest : List α} {kicked : Option α}
    (yields : Yields count entries kicked rest) : rest.Sublist entries := by
  cases yields with
  | room => exact List.Sublist.refl _
  | kick => exact List.sublist_append_left _ _

theorem Yields.perm {count : Nat} {entries rest : List α} {kicked : Option α}
    (yields : Yields count entries kicked rest) : (rest ++ kicked.toList).Perm entries := by
  cases yields with
  | room => simp
  | kick => exact List.Perm.refl _

theorem Yields.kicked_split {count : Nat} {entries rest : List α} {last : α}
    (yields : Yields count entries (some last) rest) : entries = rest ++ [last] := by
  cases yields with
  | kick => rfl

/-- A relation between neighbours of equal rank is kept where a new entry stands behind all
others. -/
theorem pairwise_place {related : α → α → Prop} {entries : List α} {entry : α}
    (pairwise : entries.Pairwise fun left right => rank left = rank right → related left right)
    (descending : Descending rank entries)
    (behind : ∀ old ∈ entries, rank old = rank entry → related old entry) :
    (place rank entry entries).Pairwise fun left right =>
      rank left = rank right → related left right := by
  induction entries with
  | nil => exact List.pairwise_singleton _ _
  | cons head rest ih =>
      obtain ⟨first, others⟩ := List.pairwise_cons.mp pairwise
      obtain ⟨above, descends⟩ := List.pairwise_cons.mp descending
      rw [place_cons]
      split
      next less =>
        refine List.pairwise_cons.mpr ⟨fun old member same => ?_, pairwise⟩
        have lower : rank old ≤ rank head := by
          rcases List.mem_cons.mp member with rfl | inRest
          · exact le_refl _
          · exact above old inRest
        omega
      next notLess =>
        refine List.pairwise_cons.mpr ⟨fun old member same => ?_, ?_⟩
        · rcases mem_place.mp member with rfl | inRest
          · exact behind head List.mem_cons_self same
          · exact first old inRest same
        · exact ih others descends fun old member => behind old (List.mem_cons_of_mem head member)

/-- Entries of equal rank are in the order of their arrival, the first list before the second,
except that those that have come down from the first list stand behind all later ones. -/
structure InOrder (rank age : α → Nat) (risen : α → Prop) (top bottom : List α) : Prop where
  topOrder : top.Pairwise fun left right => rank left = rank right → age left < age right
  across : ∀ high ∈ top, ∀ low ∈ bottom, rank high = rank low → age high < age low
  allRisen : ∀ high ∈ top, risen high
  bottomOrder : bottom.Pairwise fun left right => rank left = rank right →
    (risen right → age right < age left) ∧ (¬risen right → age left < age right)

theorem InOrder.nil {age : α → Nat} {risen : α → Prop} : InOrder rank age risen [] [] where
  topOrder := List.Pairwise.nil
  across := fun _ member => absurd member List.not_mem_nil
  allRisen := fun _ member => absurd member List.not_mem_nil
  bottomOrder := List.Pairwise.nil

theorem InOrder.congr {age age' : α → Nat} {risen risen' : α → Prop} {top bottom : List α}
    (inOrder : InOrder rank age risen top bottom)
    (sameAge : ∀ entry ∈ top ++ bottom, age' entry = age entry)
    (sameRisen : ∀ entry ∈ top ++ bottom, risen' entry ↔ risen entry) :
    InOrder rank age' risen' top bottom where
  topOrder := inOrder.topOrder.imp_of_mem fun {left right} isLeft isRight earlier => by
    rwa [sameAge left (List.mem_append_left _ isLeft),
      sameAge right (List.mem_append_left _ isRight)]
  across := fun high isHigh low isLow => by
    rw [sameAge high (List.mem_append_left _ isHigh), sameAge low (List.mem_append_right _ isLow)]
    exact inOrder.across high isHigh low isLow
  allRisen := fun high isHigh =>
    (sameRisen high (List.mem_append_left _ isHigh)).mpr (inOrder.allRisen high isHigh)
  bottomOrder := inOrder.bottomOrder.imp_of_mem fun {left right} isLeft isRight earlier => by
    rwa [sameAge left (List.mem_append_right _ isLeft),
      sameAge right (List.mem_append_right _ isRight),
      sameRisen right (List.mem_append_right _ isRight)]

section Admission

variable {age : α → Nat} {risen : α → Prop} {maxTop maxBottom : Nat} {entry last : α}
  {kicked : Option α} {top bottom rest top' bottom' : List α}

theorem InOrder.yields (inOrder : InOrder rank age risen top bottom)
    (yields : Yields maxBottom bottom kicked rest) : InOrder rank age risen top rest where
  topOrder := inOrder.topOrder
  across := fun high isHigh low isLow =>
    inOrder.across high isHigh low (yields.sublist.subset isLow)
  allRisen := inOrder.allRisen
  bottomOrder := inOrder.bottomOrder.sublist yields.sublist

/-- The last entry of the first list comes down behind later entries of its rank. -/
theorem InOrder.comeDown {init : List α} (inOrder : InOrder rank age risen (init ++ [last]) bottom)
    (descending : Descending rank bottom) :
    InOrder rank age risen init (place rank last bottom) where
  topOrder := inOrder.topOrder.sublist (List.sublist_append_left _ _)
  across := fun high isHigh low isLow same => by
    rcases mem_place.mp isLow with rfl | inBottom
    · exact (List.pairwise_append.mp inOrder.topOrder).2.2 high isHigh low (by simp) same
    · exact inOrder.across high (List.mem_append_left _ isHigh) low inBottom same
  allRisen := fun high isHigh => inOrder.allRisen high (List.mem_append_left _ isHigh)
  bottomOrder := by
    apply pairwise_place inOrder.bottomOrder descending
    intro old member same
    have isLast : last ∈ init ++ [last] := by simp
    exact ⟨fun _ => inOrder.across last isLast old member same.symm,
      fun notRisen => absurd (inOrder.allRisen last isLast) notRisen⟩

/-- A new entry enters the first list, above all of the second. -/
theorem InOrder.enterTop (inOrder : InOrder rank age risen top bottom)
    (descending : Descending rank top) (isRisen : risen entry)
    (newest : ∀ old ∈ top, age old < age entry) (above : ∀ low ∈ bottom, rank low < rank entry) :
    InOrder rank age risen (place rank entry top) bottom where
  topOrder := pairwise_place inOrder.topOrder descending fun old member _ => newest old member
  across := fun high isHigh low isLow same => by
    rcases mem_place.mp isHigh with rfl | inTop
    · exact absurd same (above low isLow).ne'
    · exact inOrder.across high inTop low isLow same
  allRisen := fun high isHigh => by
    rcases mem_place.mp isHigh with rfl | inTop
    · exact isRisen
    · exact inOrder.allRisen high inTop
  bottomOrder := inOrder.bottomOrder

theorem InOrder.enterBottom (inOrder : InOrder rank age risen top bottom)
    (descending : Descending rank bottom) (notRisen : ¬risen entry)
    (newest : ∀ old ∈ top ++ bottom, age old < age entry) :
    InOrder rank age risen top (place rank entry bottom) where
  topOrder := inOrder.topOrder
  across := fun high isHigh low isLow same => by
    rcases mem_place.mp isLow with rfl | inBottom
    · exact newest high (List.mem_append_left _ isHigh)
    · exact inOrder.across high isHigh low inBottom same
  allRisen := inOrder.allRisen
  bottomOrder := by
    apply pairwise_place inOrder.bottomOrder descending
    intro old member _
    exact ⟨fun isRisen => absurd isRisen notRisen,
      fun _ => newest old (List.mem_append_right _ member)⟩

/-- The lists stay in order when the newest entry is admitted. -/
theorem InOrder.admits (inOrder : InOrder rank age risen top bottom)
    (admits : Admits rank maxTop maxBottom entry top bottom kicked top' bottom')
    (descending : Descending rank (top ++ bottom)) (fresh : entry ∉ top)
    (newest : ∀ old ∈ top ++ bottom, age old < age entry) (isRisen : risen entry ↔ entry ∈ top') :
    InOrder rank age risen top' bottom' := by
  obtain ⟨topDescending, bottomDescending, above⟩ := List.pairwise_append.mp descending
  cases admits with
  | top short =>
      have entered : risen entry := isRisen.mpr (mem_place.mpr (.inl rfl))
      exact inOrder.enterTop topDescending entered
        (fun old member => newest old (List.mem_append_left _ member))
        fun low member => absurd member List.not_mem_nil
  | @bump init _ rest last _ isFull greater yields =>
      have entered : risen entry := isRisen.mpr (mem_place.mpr (.inl rfl))
      have down := (inOrder.yields yields).comeDown (bottomDescending.sublist yields.sublist)
      apply down.enterTop (topDescending.sublist (List.sublist_append_left _ _)) entered
      · intro old member
        exact newest old (List.mem_append_left _ (List.mem_append_left _ member))
      · intro low member
        rcases mem_place.mp member with rfl | inRest
        · exact greater
        · exact (above last (by simp) low (yields.sublist.subset inRest)).trans_lt greater
  | bottom isFull below yields _ =>
      have notRisen : ¬risen entry := fun entered => fresh (isRisen.mp entered)
      apply (inOrder.yields yields).enterBottom (bottomDescending.sublist yields.sublist) notRisen
      intro old member
      exact newest old ((yields.sublist.append_left _).subset member)

/-- Only the new entry is added, and only what is kicked is lost. -/
theorem Admits.perm (admits : Admits rank maxTop maxBottom entry top bottom kicked top' bottom') :
    (top' ++ bottom' ++ kicked.toList).Perm (entry :: (top ++ bottom)) := by
  cases admits with
  | top short =>
      simp only [List.append_nil, Option.toList_none]
      exact place_perm
  | @bump init _ rest last _ isFull greater yields =>
      rw [List.append_assoc, List.append_assoc, ← List.cons_append]
      apply place_perm.append
      exact (place_perm.append_right _).trans (yields.perm.cons last)
  | @bottom _ _ rest _ isFull below yields greater =>
      rw [List.append_assoc]
      apply List.Perm.trans _ List.perm_middle
      exact ((place_perm.append_right _).trans (yields.perm.cons entry)).append_left top

/-- The last entry of the second list is kicked, for a greater one; all others stay. -/
theorem Admits.kicks (admits : Admits rank maxTop maxBottom entry top bottom (some last) top'
    bottom') (descending : Descending rank (top ++ bottom)) :
    ∃ rest, bottom = rest ++ [last] ∧ rank last < rank entry ∧
      (top' ++ bottom').Perm (entry :: (top ++ rest)) := by
  have kept := admits.perm
  have found : ∃ rest, bottom = rest ++ [last] ∧ rank last < rank entry := by
    cases admits with
    | @bump init _ rest bumped _ isFull greater yields =>
        have split := yields.kicked_split
        have lower : rank last ≤ rank bumped :=
          (List.pairwise_append.mp descending).2.2 bumped (by simp) last (by simp [split])
        exact ⟨rest, split, lower.trans_lt greater⟩
    | @bottom _ _ rest _ isFull below yields greater =>
        exact ⟨rest, yields.kicked_split, greater last rfl⟩
  obtain ⟨rest, rfl, greater⟩ := found
  refine ⟨rest, rfl, greater, ?_⟩
  rw [← List.append_assoc, ← List.cons_append, Option.toList_some,
    List.perm_append_right_iff] at kept
  exact kept

theorem Admits.kicked_le (admits : Admits rank maxTop maxBottom entry top bottom (some last) top'
    bottom') (descending : Descending rank (top ++ bottom)) :
    ∀ other ∈ top ++ bottom ++ (top' ++ bottom'), rank last ≤ rank other := by
  obtain ⟨rest, rfl, greater, kept⟩ := admits.kicks descending
  have least : ∀ old ∈ top ++ rest, rank last ≤ rank old := by
    intro old member
    rw [← List.append_assoc] at descending
    exact (List.pairwise_append.mp descending).2.2 old member last (by simp)
  intro other member
  rcases List.mem_append.mp member with isBefore | isAfter
  · rw [← List.append_assoc] at isBefore
    rcases List.mem_append.mp isBefore with isOld | isLast
    · exact least other isOld
    · rw [List.mem_singleton.mp isLast]
  · rcases List.mem_cons.mp (kept.mem_iff.mp isAfter) with rfl | isOld
    · exact greater.le
    · exact least other isOld

/-- What is kicked is later than all that stay of its rank, unless it has come down from the
first list and there are others of its rank in the second. -/
theorem InOrder.kicked_iff (inOrder : InOrder rank age risen top bottom)
    (admits : Admits rank maxTop maxBottom entry top bottom (some last) top' bottom')
    (descending : Descending rank (top ++ bottom)) (distinct : bottom.Nodup) :
    (∀ stays ∈ top' ++ bottom', rank stays = rank last → age stays < age last) ↔
      (risen last → ∀ other ∈ bottom, rank other = rank last → other = last) := by
  obtain ⟨rest, rfl, greater, kept⟩ := admits.kicks descending
  have order := (List.pairwise_append.mp inOrder.bottomOrder).2.2
  have isLast : last ∈ rest ++ [last] := by simp
  constructor
  · intro latest isRisen other member same
    rcases List.mem_append.mp member with inRest | isSame
    · have stays : other ∈ top' ++ bottom' := kept.mem_iff.mpr (by simp [inRest])
      have earlier := latest other stays same
      have later := (order other inRest last (by simp) same).1 isRisen
      exact absurd earlier later.asymm
    · exact List.mem_singleton.mp isSame
  · intro alone stays member same
    rcases List.mem_cons.mp (kept.mem_iff.mp member) with rfl | isOld
    · exact absurd same greater.ne'
    · rcases List.mem_append.mp isOld with inTop | inRest
      · exact inOrder.across stays inTop last isLast same
      · refine (order stays inRest last (by simp) same).2 fun isRisen => ?_
        have isSame := alone isRisen stays (List.mem_append_left _ inRest) same
        rw [isSame] at inRest
        exact (List.nodup_append.mp distinct).2.2 last inRest last (by simp) rfl

end Admission

end Foundation.Ranked
