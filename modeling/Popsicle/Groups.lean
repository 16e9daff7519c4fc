import Popsicle.Extrinsics
import Popsicle.Foundation.RoundRobin
import Mathlib.Data.List.SplitLengths

/-!
# How groups are formed

The shuffle rearranges the candidates, and the groups are cut off the end of what
it leaves.  `Formed` says what groups come out of it, and `ends_triggerGroup` what
else changes, also where forming them fails.
-/

namespace Popsicle

open Foundation Exec RoundRobin

variable {AccountId Native : Type} {config : Config AccountId Native}

/-! ## The shuffle -/

theorem swap_perm {accounts : List AccountId} {i j : Nat} (first : i < accounts.length)
    (second : j < accounts.length) :
    ∃ swapped, swap accounts i j = some swapped ∧ swapped.Perm accounts := by
  refine ⟨(accounts.set i accounts[j]).set j accounts[i], ?_, List.set_set_perm first second⟩
  simp [swap, first, second]

theorem shuffleFrom_perm (randomValue : Nat) {accounts : List AccountId} {i : Nat}
    (inside : i = 0 ∨ i < accounts.length) :
    ∃ shuffled, shuffleFrom randomValue accounts i = some shuffled ∧ shuffled.Perm accounts := by
  induction i generalizing accounts with
  | zero => exact ⟨accounts, rfl, .refl _⟩
  | succ i ih =>
      have first : i + 1 < accounts.length := by omega
      have chosen : randomValue % (i + 2) < i + 2 := Nat.mod_lt _ (Nat.succ_pos _)
      obtain ⟨swapped, isSwapped, swappedPerm⟩ :=
        swap_perm first (show randomValue % (i + 2) < accounts.length by omega)
      have length := swappedPerm.length_eq
      have swappedInside : i = 0 ∨ i < swapped.length := by omega
      obtain ⟨shuffled, isShuffled, shuffledPerm⟩ := ih swappedInside
      refine ⟨shuffled, ?_, shuffledPerm.trans swappedPerm⟩
      simp [shuffleFrom, isSwapped, isShuffled]

/-- A shuffle neither loses nor repeats an account, and stays inside the list. -/
theorem shuffleAccounts_perm (parentHash : Nat) (accounts : List AccountId) :
    ∃ shuffled, shuffleAccounts parentHash accounts = some shuffled ∧
      shuffled.Perm accounts :=
  shuffleFrom_perm _ (by omega)

/-! ## Groups -/

/-- How the grouping of sequencers fails. -/
def GroupingFault (fault : Fault) : Prop :=
  (∃ reason, fault = .error reason) ∨ fault = .panic .arithmeticOverflow ∨
    fault = .panic .groupCandidatesPop ∨ fault = .panic .groupTryPush

theorem groupingFault_error (reason : DispatchError) : GroupingFault (.error reason) :=
  .inl ⟨reason, rfl⟩

theorem groupingFault_overflow : GroupingFault (.panic .arithmeticOverflow) := .inr (.inl rfl)

/-- The groups that are formed of some candidates. -/
structure Formed (groupSize groupNumber : Nat) (candidates : List AccountId)
    (groupMembers : List (List AccountId)) : Prop where
  number : groupMembers.length = groupNumber
  size : ∀ group ∈ groupMembers, group.length = groupSize
  drawn : groupMembers.flatten.Subperm candidates

namespace Formed

variable {groupSize groupNumber : Nat} {candidates : List AccountId}
  {groupMembers : List (List AccountId)}

theorem length_flatten (formed : Formed groupSize groupNumber candidates groupMembers) :
    groupMembers.flatten.length = groupSize * groupNumber := by
  have lengths : groupMembers.map List.length = List.replicate groupNumber groupSize := by
    rw [← formed.number, List.eq_replicate_iff]
    simpa using formed.size
  rw [List.length_flatten, lengths, List.sum_replicate_nat, Nat.mul_comm]

/-- Groups that leave no candidate over are made of all of them. -/
theorem perm (formed : Formed groupSize groupNumber candidates groupMembers)
    (noMore : candidates.length ≤ groupSize * groupNumber) :
    groupMembers.flatten.Perm candidates := by
  refine formed.drawn.perm_of_length_le ?_
  rw [formed.length_flatten]
  exact noMore

/-- Of distinct candidates, each is in one place of one group at most. -/
theorem nodup (formed : Formed groupSize groupNumber candidates groupMembers)
    (distinct : candidates.Nodup) : groupMembers.flatten.Nodup := by
  obtain ⟨part, isPart, sublist⟩ := formed.drawn
  exact isPart.nodup (sublist.nodup distinct)

end Formed

section Grouping

variable {groups : Groups AccountId}

theorem ends_takeGroup (candidates : List AccountId) {group : List AccountId} (count : Nat)
    (isBounded : group.length ≤ config.maxGroupSize) :
    (takeGroup config candidates group count).Ends groups
      (fun taken after => after = groups ∧ count ≤ candidates.length ∧
        group.length + count ≤ config.maxGroupSize ∧
        taken.1.reverse = candidates.reverse.drop count ∧
        taken.2 = group ++ candidates.reverse.take count)
      (fun fault after => after = groups ∧
        (fault = .panic .groupCandidatesPop ∧ candidates.length < count ∨
          fault = .panic .groupTryPush ∧ config.maxGroupSize < group.length + count)) := by
  induction count generalizing candidates group with
  | zero => exact ⟨rfl, Nat.zero_le _, isBounded, by simp⟩
  | succ count ih =>
      simp only [takeGroup, ends_bind, ends_require, ends_ensure]
      refine ⟨fun candidate isLast => ⟨fun hasRoom => ?_, fun noRoom => ?_⟩, fun isEmpty => ?_⟩
      · obtain ⟨initial, rfl⟩ := List.getLast?_eq_some_iff.mp isLast
        have grown : (group ++ [candidate]).length = group.length + 1 := by simp
        have shrunk : (initial ++ [candidate]).length = initial.length + 1 := by simp
        rw [List.dropLast_concat]
        refine (ih initial (by omega)).mono ?_ ?_
        · rintro ⟨rest, taken⟩ after ⟨isSame, enough, fits, isRest, isTaken⟩
          refine ⟨isSame, by omega, by omega, by simpa using isRest, ?_⟩
          simpa using isTaken
        · rintro fault after ⟨isSame, ⟨rfl, tooFew⟩ | ⟨rfl, tooMany⟩⟩
          · exact ⟨isSame, .inl ⟨rfl, by omega⟩⟩
          · exact ⟨isSame, .inr ⟨rfl, by omega⟩⟩
      · exact ⟨trivial, .inr ⟨trivial, by omega⟩⟩
      · obtain rfl := List.getLast?_eq_none_iff.mp isEmpty
        exact ⟨trivial, .inl ⟨trivial, Nat.succ_pos _⟩⟩

/-- Cut groups off a list of candidates, as many as asked for. -/
def cut (groupSize groupNumber : Nat) (candidates : List AccountId) : List (List AccountId) :=
  (List.replicate groupNumber groupSize).splitLengths candidates

theorem cut_succ (groupSize groupNumber : Nat) (candidates : List AccountId) :
    cut groupSize (groupNumber + 1) candidates =
      candidates.take groupSize :: cut groupSize groupNumber (candidates.drop groupSize) := by
  rw [cut, List.replicate_succ, List.splitLengths_cons, cut]

/-- Groups that are cut off have the members of the list in their order. -/
theorem flatten_cut (groupSize groupNumber : Nat) (candidates : List AccountId) :
    (cut groupSize groupNumber candidates).flatten =
      candidates.take (groupSize * groupNumber) := by
  induction groupNumber generalizing candidates with
  | zero => simp [cut]
  | succ groupNumber ih =>
      rw [cut_succ, List.flatten_cons, ih, Nat.mul_succ, Nat.add_comm, List.take_add]

theorem formed_cut {groupSize groupNumber : Nat} {candidates reordered : List AccountId}
    (perm : reordered.Perm candidates) (enough : groupSize * groupNumber ≤ candidates.length) :
    Formed groupSize groupNumber candidates (cut groupSize groupNumber reordered) := by
  have total : (List.replicate groupNumber groupSize).sum ≤ reordered.length := by
    rw [List.sum_replicate_nat, Nat.mul_comm, perm.length_eq]
    exact enough
  refine ⟨by simp [cut], fun group member => ?_, ?_⟩
  · have sizes := List.map_splitLengths_length reordered _ total
    have isSize : group.length ∈ List.replicate groupNumber groupSize := by
      rw [← sizes]
      exact List.mem_map_of_mem member
    exact List.eq_of_mem_replicate isSize
  · rw [flatten_cut]
    exact (List.take_sublist _ _).subperm.trans perm.subperm

theorem ends_takeGroups (groupSize : Nat) (candidates : List AccountId)
    {taken : List (List AccountId)} (count : Nat)
    (isBounded : taken.length ≤ config.maxGroupNumber) :
    (takeGroups config groupSize candidates taken count).Ends groups
      (fun all after => after = groups ∧ groupSize * count ≤ candidates.length ∧
        (count = 0 ∨ groupSize ≤ config.maxGroupSize) ∧
        taken.length + count ≤ config.maxGroupNumber ∧
        all = taken ++ cut groupSize count candidates.reverse)
      (fun fault after => after = groups ∧
        (fault = .panic .groupCandidatesPop ∧ candidates.length < groupSize * count ∨
          fault = .panic .groupTryPush ∧ (0 < count ∧ config.maxGroupSize < groupSize ∨
            config.maxGroupNumber < taken.length + count))) := by
  induction count generalizing candidates taken groups with
  | zero => exact ⟨rfl, Nat.zero_le _, .inl rfl, isBounded, by simp [cut]⟩
  | succ count ih =>
      simp only [takeGroups, ends_bind, ends_ensure]
      refine (ends_takeGroup candidates groupSize (Nat.zero_le _)).mono ?_ ?_
      · rintro ⟨rest, group⟩ _ ⟨rfl, enough, fits, isRest, isGroup⟩
        dsimp only at isRest isGroup
        rw [List.length_nil, Nat.zero_add] at fits
        have restLength : rest.length + groupSize = candidates.length := by
          have lengths := congrArg List.length isRest
          simp only [List.length_reverse, List.length_drop] at lengths
          omega
        refine ⟨fun hasRoom => ?_, fun noRoom => ⟨rfl, .inr ⟨trivial, .inr (by omega)⟩⟩⟩
        have grown : (taken ++ [group]).length = taken.length + 1 := by simp
        have grownBounded : (taken ++ [group]).length ≤ config.maxGroupNumber := by omega
        refine (ih rest grownBounded).mono ?_ ?_
        · rintro all after ⟨isSame, more, _, number, rfl⟩
          rw [grown] at number
          refine ⟨isSame, ?_, .inr fits, by omega, ?_⟩
          · rw [Nat.mul_succ]
            omega
          · rw [cut_succ, ← isRest, isGroup]
            simp
        · rintro fault after ⟨isSame, ⟨rfl, tooFew⟩ | ⟨rfl, tooMany⟩⟩
          · refine ⟨isSame, .inl ⟨rfl, ?_⟩⟩
            rw [Nat.mul_succ]
            omega
          · refine ⟨isSame, .inr ⟨rfl, ?_⟩⟩
            omega
      · rintro fault after ⟨isSame, ⟨rfl, tooFew⟩ | ⟨rfl, tooMany⟩⟩
        · refine ⟨isSame, .inl ⟨rfl, ?_⟩⟩
          rw [Nat.mul_succ]
          omega
        · rw [List.length_nil, Nat.zero_add] at tooMany
          exact ⟨isSame, .inr ⟨rfl, .inl ⟨Nat.succ_pos _, tooMany⟩⟩⟩

/-! ## Processors -/

/-- The processors with the groups below a count dealt to them. -/
def deal (processorInfo : List (ProcessorInfo AccountId)) (count : Nat) :
    List (ProcessorInfo AccountId) :=
  processorInfo.mapIdx fun index processor =>
    { processor with groups := dealt processorInfo.length count index }

@[simp] theorem length_deal (processorInfo : List (ProcessorInfo AccountId)) (count : Nat) :
    (deal processorInfo count).length = processorInfo.length := by
  simp [deal]

theorem getElem?_deal (processorInfo : List (ProcessorInfo AccountId)) (count index : Nat) :
    (deal processorInfo count)[index]? = processorInfo[index]?.map fun processor =>
      { processor with groups := dealt processorInfo.length count index } := by
  simp [deal]

theorem deal_zero (processorInfo : List (ProcessorInfo AccountId)) :
    deal processorInfo 0 = processorInfo.map fun processor => { processor with groups := [] } := by
  apply List.ext_getElem?
  intro index
  rw [getElem?_deal, List.getElem?_map]
  rfl

theorem deal_succ {processorInfo : List (ProcessorInfo AccountId)} {count : Nat}
    {processor : ProcessorInfo AccountId}
    (isNext : (deal processorInfo count)[count % processorInfo.length]? = some processor) :
    (deal processorInfo count).set (count % processorInfo.length)
        { processor with groups := processor.groups ++ [count] } =
      deal processorInfo (count + 1) := by
  rw [getElem?_deal, Option.map_eq_some_iff] at isNext
  obtain ⟨stored, isStored, rfl⟩ := isNext
  apply List.ext_getElem?
  intro index
  rw [List.getElem?_set, getElem?_deal, getElem?_deal, dealt_succ, length_deal]
  by_cases same : count % processorInfo.length = index
  · subst same
    obtain ⟨inside, rfl⟩ := List.getElem?_eq_some_iff.mp isStored
    simp [inside]
  · simp [same]

/-- Groups are dealt until all are, or the next processor is full. -/
theorem ends_assignFrom {processorInfo : List (ProcessorInfo AccountId)} {groupId count : Nat}
    (some : processorInfo ≠ []) (fits : groupId ≤ processorInfo.length * config.maxRunningApp) :
    (assignFrom config groupId (deal processorInfo groupId) count).Ends groups
      (fun dealt after => after = groups ∧ dealt = deal processorInfo (groupId + count) ∧
        groupId + count ≤ processorInfo.length * config.maxRunningApp)
      (fun fault after => after = groups ∧ fault = .error (.grouping .tooManyProcessors) ∧
        processorInfo.length * config.maxRunningApp < groupId + count) := by
  have positive := List.length_pos_iff.mpr some
  induction count generalizing groupId with
  | zero => exact ⟨rfl, rfl, fits⟩
  | succ count ih =>
      simp only [assignFrom, length_deal]
      split
      next none =>
        rw [List.getElem?_eq_none_iff, length_deal] at none
        exact absurd (Nat.mod_lt groupId positive) (Nat.not_lt.mpr none)
      next processor isNext =>
        have isShare : processor.groups =
            dealt processorInfo.length groupId (groupId % processorInfo.length) := by
          rw [getElem?_deal, Option.map_eq_some_iff] at isNext
          obtain ⟨_, _, rfl⟩ := isNext
          rfl
        have isNew : groupId ∉ processor.groups := by
          rw [isShare, mem_dealt]
          exact fun member => absurd member.1 (Nat.lt_irrefl _)
        have hasRoom : processor.groups.length < config.maxRunningApp ↔
            groupId < processorInfo.length * config.maxRunningApp := by
          rw [isShare, length_dealt_next positive, Nat.div_lt_iff_lt_mul positive, Nat.mul_comm]
        rw [if_neg isNew]
        simp only [ends_bind, ends_ensure, hasRoom]
        refine ⟨fun room => ?_, fun isFull => ⟨trivial, trivial, by omega⟩⟩
        rw [deal_succ isNext, Nat.add_comm count 1, ← Nat.add_assoc]
        exact ih room

/-- The last group to be dealt: the predecessor of the number of groups as a `u32`. -/
def lastGroup (groupNumber : Nat) : Nat := (groupNumber + u32Max) % (u32Max + 1)

/-- The predecessor of the number of groups is no `u32`, and the build checks for it. -/
def Underflows (config : Config AccountId Native) (groupNumber : Nat) : Prop :=
  config.overflowChecks = true ∧ (groupNumber = 0 ∨ u32Max + 1 < groupNumber)

theorem lastGroup_of_pos {groupNumber : Nat} (positive : 0 < groupNumber)
    (fits : groupNumber ≤ u32Max) : lastGroup groupNumber + 1 = groupNumber := by
  simp only [lastGroup, u32Max] at *
  omega

theorem ends_u32Result_pred {groupNumber : Nat} {post : Nat → Groups AccountId → Prop}
    {excuse : Fault → Groups AccountId → Prop} :
    (u32Result config.overflowChecks ((groupNumber : Nat) - 1) : GroupsM AccountId Nat).Ends
        groups post excuse ↔
      (¬Underflows config groupNumber → post (lastGroup groupNumber) groups) ∧
        (Underflows config groupNumber → excuse (.panic .arithmeticOverflow) groups) := by
  unfold u32Result
  by_cases fits : 0 < groupNumber ∧ groupNumber ≤ u32Max + 1
  · have inside : (0 : Int) ≤ (groupNumber : Nat) - 1 ∧
        ((groupNumber : Nat) : Int) - 1 ≤ (u32Max : Nat) := by
      omega
    have last : (((groupNumber : Nat) : Int) - 1).toNat = lastGroup groupNumber := by
      simp only [lastGroup, u32Max] at *
      omega
    have numbered : ¬Underflows config groupNumber := by
      rintro ⟨_, none | beyond⟩ <;> omega
    rw [if_pos inside, last]
    simp [numbered]
  · have outside : ¬((0 : Int) ≤ (groupNumber : Nat) - 1 ∧
        ((groupNumber : Nat) : Int) - 1 ≤ (u32Max : Nat)) := by
      omega
    have wrapped : ((((groupNumber : Nat) : Int) - 1) % ((u32Max : Nat) + 1)).toNat =
        lastGroup groupNumber := by
      simp only [lastGroup, u32Max]
      omega
    have underflows : Underflows config groupNumber ↔ config.overflowChecks = true := by
      unfold Underflows
      exact and_iff_left (by omega)
    rw [if_neg outside, wrapped, underflows]
    cases config.overflowChecks <;> simp

/-- How the groups are not assigned to the processors. -/
inductive Unassigned (config : Config AccountId Native)
    (processorInfo : List (ProcessorInfo AccountId)) (groupNumber : Nat) : Fault → Prop where
  | noProcessors (none : processorInfo = []) :
      Unassigned config processorInfo groupNumber (.error (.grouping .noProcessors))
  | underflow (some : processorInfo ≠ []) (underflows : Underflows config groupNumber) :
      Unassigned config processorInfo groupNumber (.panic .arithmeticOverflow)
  | tooMany (some : processorInfo ≠ []) (numbered : ¬Underflows config groupNumber)
      (beyond : processorInfo.length * config.maxRunningApp < lastGroup groupNumber + 1) :
      Unassigned config processorInfo groupNumber (.error (.grouping .tooManyProcessors))

theorem ends_assignProcessorsToGroups (groupNumber : Nat) :
    (assignProcessorsToGroups config groupNumber).Ends groups
      (fun _ after => (∀ fault, ¬Unassigned config groups.processorInfo groupNumber fault) ∧
        after = { groups with
          processorInfo := deal groups.processorInfo (lastGroup groupNumber + 1) })
      (fun fault after =>
        after = groups ∧ Unassigned config groups.processorInfo groupNumber fault) := by
  simp only [assignProcessorsToGroups, ends_bind, ends_read, ends_ensure]
  refine ⟨fun some => ?_, fun none => ⟨trivial, .noProcessors (not_not.mp none)⟩⟩
  rw [ends_u32Result_pred, ← deal_zero]
  refine ⟨fun numbered => ?_, fun underflows => ⟨rfl, .underflow some underflows⟩⟩
  refine (ends_assignFrom some (Nat.zero_le _)).mono ?_ ?_
  · rintro dealt _ ⟨rfl, rfl, fits⟩
    rw [Nat.zero_add] at fits ⊢
    refine ⟨?_, rfl⟩
    rintro fault (none | ⟨_, underflows⟩ | ⟨_, _, beyond⟩)
    · exact some none
    · exact numbered underflows
    · omega
  · rintro fault _ ⟨rfl, rfl, beyond⟩
    rw [Nat.zero_add] at beyond
    exact ⟨rfl, .tooMany some numbered beyond⟩

/-! ## Forming groups -/

/-- What it takes to cut the groups off the candidates. -/
structure Cuttable (config : Config AccountId Native) (groups : Groups AccountId)
    (candidates : List AccountId) : Prop where
  fits : ¬(config.overflowChecks = true ∧ u32Max < groups.groupSize * groups.groupNumber)
  enough : groups.groupSize * groups.groupNumber ≤ candidates.length
  size : groups.groupNumber = 0 ∨ groups.groupSize ≤ config.maxGroupSize
  number : groups.groupNumber ≤ config.maxGroupNumber

/-- The group metrics are more than the types of the code have room for. -/
def Excessive (config : Config AccountId Native) (groups : Groups AccountId) : Prop :=
  u32Max < groups.groupSize * groups.groupNumber ∨
    0 < groups.groupNumber ∧ config.maxGroupSize < groups.groupSize ∨
    config.maxGroupNumber < groups.groupNumber

/-- How forming groups fails: before the groups are stored, or once they are. -/
inductive NotGrouped (config : Config AccountId Native) (parentHash : Nat)
    (candidates : List AccountId) (groups : Groups AccountId) :
    Fault → Groups AccountId → Prop where
  | tooFew (fits : ¬(config.overflowChecks = true ∧
        u32Max < groups.groupSize * groups.groupNumber))
      (few : candidates.length < groups.groupSize * groups.groupNumber) :
      NotGrouped config parentHash candidates groups
        (.error (.grouping .candidatesNotEnough)) groups
  | excessive (site : PanicSite) (isFault : GroupingFault (.panic site))
      (excessive : Excessive config groups) (notCuttable : ¬Cuttable config groups candidates) :
      NotGrouped config parentHash candidates groups (.panic site) groups
  | unassigned (fault : Fault) (shuffled : List AccountId)
      (isShuffled : shuffleAccounts parentHash candidates = some shuffled)
      (cuttable : Cuttable config groups candidates)
      (unassigned : Unassigned config groups.processorInfo groups.groupNumber fault) :
      NotGrouped config parentHash candidates groups fault
        { groups with groupMembers := cut groups.groupSize groups.groupNumber shuffled.reverse }

/-- What forming groups leaves behind. -/
structure Grouped (config : Config AccountId Native) (parentHash : Nat)
    (candidates : List AccountId) (startingBlock roundIndex : Nat)
    (groups after : Groups AccountId) : Prop where
  cuttable : Cuttable config groups candidates
  assigned : ∀ fault, ¬Unassigned config groups.processorInfo groups.groupNumber fault
  isAfter : ∃ shuffled, shuffleAccounts parentHash candidates = some shuffled ∧
    after = { groups with
      groupMembers := cut groups.groupSize groups.groupNumber shuffled.reverse
      processorInfo := deal groups.processorInfo (lastGroup groups.groupNumber + 1)
      nextRound := (startingBlock, roundIndex) }

theorem ends_triggerGroup_grouped (parentHash : Nat) (candidates : List AccountId)
    (startingBlock roundIndex : Nat) :
    (triggerGroup config parentHash candidates startingBlock roundIndex).Ends groups
      (fun _ after =>
        Grouped config parentHash candidates startingBlock roundIndex groups after)
      (fun fault after => NotGrouped config parentHash candidates groups fault after) := by
  obtain ⟨shuffled, isShuffled, perm⟩ := shuffleAccounts_perm parentHash candidates
  have wrapped : groups.groupSize * groups.groupNumber % (u32Max + 1) ≤
      groups.groupSize * groups.groupNumber :=
    Nat.mod_le _ _
  simp only [triggerGroup, totalSelected, ends_bind, ends_read, ends_u32Result_nat, ends_ensure,
    ends_require, isShuffled, Option.some.injEq, forall_eq', reduceCtorEq, false_implies,
    and_true]
  refine ⟨fun fits => ⟨fun enough => ?_, fun few => .tooFew fits (by omega)⟩, fun overflows =>
    .excessive _ groupingFault_overflow (.inl overflows.2) fun cuttable =>
      cuttable.fits overflows⟩
  refine (ends_takeGroups _ _ _ (Nat.zero_le _)).mono ?_ ?_
  · rintro groupMembers _ ⟨rfl, enough, size, number, rfl⟩
    rw [List.length_nil, Nat.zero_add] at number
    rw [perm.length_eq] at enough
    have cuttable := Cuttable.mk fits enough size number
    simp only [ends_write, List.nil_append]
    refine (ends_assignProcessorsToGroups _).mono ?_ ?_
    · rintro _ _ ⟨assigned, rfl⟩
      exact ⟨cuttable, assigned, shuffled, isShuffled, rfl⟩
    · rintro fault _ ⟨rfl, unassigned⟩
      exact .unassigned fault shuffled isShuffled cuttable unassigned
  · rintro fault _ ⟨rfl, ⟨rfl, tooFew⟩ | ⟨rfl, size | number⟩⟩
    · rw [perm.length_eq] at tooFew
      refine .excessive _ (.inr (.inr (.inl rfl))) (.inl ?_) fun cuttable => ?_
      · by_contra small
        rw [Nat.mod_eq_of_lt (by omega)] at enough
        omega
      · exact absurd cuttable.enough (Nat.not_le.mpr tooFew)
    · refine .excessive _ (.inr (.inr (.inr rfl))) (.inr (.inl size)) fun cuttable => ?_
      rcases cuttable.size with none | fits <;> omega
    · rw [List.length_nil, Nat.zero_add] at number
      refine .excessive _ (.inr (.inr (.inr rfl))) (.inr (.inr number)) fun cuttable => ?_
      exact absurd cuttable.number (Nat.not_le.mpr number)

/-- Forming groups announces the round they are for.  Where it fails, with an error or
at a panic of its own, nothing is announced. -/
theorem ends_triggerGroup (parentHash : Nat) (candidates : List AccountId)
    (startingBlock roundIndex : Nat) :
    (triggerGroup config parentHash candidates startingBlock roundIndex).Ends groups
      (fun _ after => ∃ groupMembers processorInfo,
        Formed groups.groupSize groups.groupNumber candidates groupMembers ∧
        after = { groups with
          groupMembers, processorInfo, nextRound := (startingBlock, roundIndex) })
      (fun fault after => GroupingFault fault ∧
        ∃ groupMembers, after = { groups with groupMembers }) := by
  refine (ends_triggerGroup_grouped _ _ _ _).mono ?_ ?_
  · rintro _ _ ⟨cuttable, _, shuffled, isShuffled, rfl⟩
    obtain ⟨_, isAlso, perm⟩ := shuffleAccounts_perm parentHash candidates
    obtain rfl := Option.some.inj (isShuffled.symm.trans isAlso)
    exact ⟨_, _, formed_cut ((List.reverse_perm shuffled).trans perm) cuttable.enough, rfl⟩
  · rintro fault after notGrouped
    cases notGrouped with
    | tooFew => exact ⟨groupingFault_error _, groups.groupMembers, rfl⟩
    | excessive site isFault => exact ⟨isFault, groups.groupMembers, rfl⟩
    | unassigned fault shuffled _ _ unassigned =>
        refine ⟨?_, _, rfl⟩
        cases unassigned with
        | noProcessors | tooMany => exact groupingFault_error _
        | underflow => exact groupingFault_overflow

end Grouping

/-! ## Members -/

/-- An account is in the group that `account_in_group` finds for it, if it is in one
group only. -/
theorem accountInGroup_iff [DecidableEq AccountId] {groups : Groups AccountId}
    (disjoint : groups.groupMembers.Pairwise List.Disjoint) (account : AccountId) (index : Nat) :
    accountInGroup account groups = (.ok index, groups) ↔
      ∃ group, groups.groupMembers[index]? = some group ∧ account ∈ group := by
  have found : accountInGroup account groups = (.ok index, groups) ↔
      groups.groupMembers.findIdx? (fun group => account ∈ group) = some index := by
    change require _ _ groups = _ ↔ _
    cases groups.groupMembers.findIdx? (fun group => account ∈ group) with
    | none => exact ⟨fun isOk => (by cases isOk), fun isSome => (by cases isSome)⟩
    | some first =>
        constructor
        · intro isOk
          cases isOk
          rfl
        · rintro ⟨⟩
          rfl
  rw [found, List.findIdx?_eq_some_iff_getElem]
  constructor
  · rintro ⟨isIndex, member, _⟩
    exact ⟨groups.groupMembers[index], List.getElem?_eq_getElem isIndex, by simpa using member⟩
  · rintro ⟨group, isGroup, member⟩
    obtain ⟨isIndex, rfl⟩ := List.getElem?_eq_some_iff.mp isGroup
    refine ⟨isIndex, by simpa using member, fun earlier before => ?_⟩
    have apart := List.pairwise_iff_getElem.mp disjoint earlier index (before.trans isIndex)
      isIndex before
    simpa using fun inEarlier => apart inEarlier member

end Popsicle
