import Popsicle.GroupRuns
import Mathlib.Algebra.Order.Floor.Div

/-!
# Groups on processors

The groups are dealt in turn to the registered processors, whatever these have run before.
It fails only if a processor would get more than it can run.
-/

namespace Popsicle

open Foundation Exec Keyed RoundRobin

variable {AccountId Native : Type} [DecidableEq AccountId] {config : Config AccountId Native}
  {groups after : Groups AccountId}

/-- An account with a processor of its own runs the groups of that processor. -/
theorem getGroupIds_of_mem (registered : Registered config groups.processorInfo)
    {processor : ProcessorInfo AccountId} (member : processor ∈ groups.processorInfo) :
    getGroupIds groups processor.account = processor.groups := by
  have distinct : Distinct ProcessorInfo.account groups.processorInfo := registered.distinct
  have found : groups.processorInfo.find? (fun other => other.account = processor.account) =
      some processor :=
    distinct.lookup_of_mem member
  rw [getGroupIds, found]

/-- The groups are dealt evenly to the processors, and nothing else is changed. -/
structure Dealt (groupNumber : Nat) (groups after : Groups AccountId) : Prop where
  frame : after = { groups with processorInfo := after.processorInfo }
  length : after.processorInfo.length = groups.processorInfo.length
  share : ∀ (index : Nat) (processor : ProcessorInfo AccountId),
    groups.processorInfo[index]? = some processor →
      after.processorInfo[index]? = some { processor with
        groups := (List.range groupNumber).filter
          fun group => group % groups.processorInfo.length = index }
  onOne : ∀ group < groupNumber, ∃! account,
    account ∈ groups.processorInfo.map ProcessorInfo.account ∧
      group ∈ getGroupIds after account
  even : ∀ processor ∈ after.processorInfo, ∀ other ∈ after.processorInfo,
    processor.groups.length ≤ other.groups.length + 1

omit [DecidableEq AccountId] in
theorem exists_of_mem_deal {processorInfo : List (ProcessorInfo AccountId)} {count : Nat}
    {processor : ProcessorInfo AccountId} (member : processor ∈ deal processorInfo count) :
    ∃ index < processorInfo.length,
      processor.groups = dealt processorInfo.length count index := by
  obtain ⟨index, isIndex⟩ := List.mem_iff_getElem?.mp member
  rw [getElem?_deal, Option.map_eq_some_iff] at isIndex
  obtain ⟨stored, isStored, rfl⟩ := isIndex
  exact ⟨index, (List.getElem?_eq_some_iff.mp isStored).1, rfl⟩

/-- A group is run by the processor it is dealt to and by no other. -/
theorem existsUnique_dealt (registered : Registered config groups.processorInfo)
    (nonempty : groups.processorInfo ≠ []) {groupNumber group : Nat} (isGroup : group < groupNumber)
    (isAfter : after.processorInfo = deal groups.processorInfo groupNumber) :
    ∃! account, account ∈ groups.processorInfo.map ProcessorInfo.account ∧
      group ∈ getGroupIds after account := by
  have sameAccounts : after.processorInfo.map ProcessorInfo.account =
      groups.processorInfo.map ProcessorInfo.account := by
    rw [isAfter]
    exact map_deal (fun _ _ => rfl) _ _
  have registeredAfter : Registered config after.processorInfo := by
    refine ⟨?_, ?_⟩
    · rw [sameAccounts]
      exact registered.distinct
    · rw [isAfter, length_deal]
      exact registered.bounded
  have runs {processor : ProcessorInfo AccountId} {index : Nat}
      (isProcessor : after.processorInfo[index]? = some processor) :
      group ∈ getGroupIds after processor.account ↔
        group % groups.processorInfo.length = index := by
    rw [getGroupIds_of_mem registeredAfter (List.mem_of_getElem? isProcessor)]
    rw [isAfter, getElem?_deal, Option.map_eq_some_iff] at isProcessor
    obtain ⟨_, _, rfl⟩ := isProcessor
    rw [mem_dealt]
    exact and_iff_right isGroup
  have inside : group % groups.processorInfo.length < after.processorInfo.length := by
    rw [isAfter, length_deal]
    exact Nat.mod_lt _ (List.length_pos_iff.mpr nonempty)
  rw [← sameAccounts]
  refine ⟨after.processorInfo[group % groups.processorInfo.length].account,
    ⟨List.mem_map_of_mem (List.getElem_mem inside), ?_⟩, ?_⟩
  · exact (runs (List.getElem?_eq_getElem inside)).mpr rfl
  · rintro account ⟨isRegistered, isRun⟩
    obtain ⟨processor, member, rfl⟩ := List.mem_map.mp isRegistered
    obtain ⟨index, isIndex⟩ := List.mem_iff_getElem?.mp member
    obtain rfl := (runs isIndex).mp isRun
    rw [List.getElem?_eq_getElem inside] at isIndex
    rw [Option.some.inj isIndex]

omit [DecidableEq AccountId] in
/-- Where there are groups and processors, all that can go wrong is that the fullest of these
cannot run its share. -/
theorem unassigned_iff {processorInfo : List (ProcessorInfo AccountId)}
    (nonempty : processorInfo ≠ []) {groupNumber : Nat} (positive : 1 ≤ groupNumber)
    (fits : groupNumber ≤ u32Max) {fault : Fault} :
    Unassigned config processorInfo groupNumber fault ↔
      fault = .error (.grouping .tooManyProcessors) ∧
        ¬groupNumber ⌈/⌉ processorInfo.length ≤ config.maxRunningApp := by
  have numbered : ¬Underflows config groupNumber := by
    rintro ⟨_, none | outside⟩ <;> omega
  rw [ceilDiv_le_iff_le_mul (List.length_pos_iff.mpr nonempty), Nat.not_le]
  constructor
  · intro unassigned
    cases unassigned with
    | noProcessors none => exact absurd none nonempty
    | underflow _ underflows => exact absurd underflows numbered
    | tooMany _ _ overFull =>
        rw [lastGroup_of_pos positive fits] at overFull
        exact ⟨rfl, overFull⟩
  · rintro ⟨rfl, overFull⟩
    rw [← lastGroup_of_pos positive fits] at overFull
    exact .tooMany nonempty numbered overFull

theorem Registered.dealt (registered : Registered config groups.processorInfo)
    (nonempty : groups.processorInfo ≠ []) (groupNumber : Nat) :
    Dealt groupNumber groups
      { groups with processorInfo := deal groups.processorInfo groupNumber } := by
  refine ⟨rfl, length_deal _ _, fun index processor isIndex => ?_,
    fun group isGroup => existsUnique_dealt registered nonempty isGroup rfl, ?_⟩
  · rw [getElem?_deal, isIndex]
    rfl
  · intro processor member other otherMember
    obtain ⟨index, inside, isShare⟩ := exists_of_mem_deal member
    obtain ⟨otherIndex, otherInside, isOtherShare⟩ := exists_of_mem_deal otherMember
    rw [isShare, isOtherShare]
    exact length_dealt_le inside otherInside

/-- Groups can be assigned exactly if the fullest processor can run its share; then each of
them is dealt to one processor, and otherwise the processors are left alone. -/
theorem processors_dealt (reachable : GroupsReachable config groups)
    (nonempty : groups.processorInfo ≠ []) {groupNumber : Nat} (positive : 1 ≤ groupNumber)
    (fits : groupNumber ≤ u32Max) :
    ((assignProcessorsToGroups config groupNumber groups).1 = .ok () ↔
      groupNumber ⌈/⌉ groups.processorInfo.length ≤ config.maxRunningApp) ∧
    (∀ after, assignProcessorsToGroups config groupNumber groups = (.ok (), after) →
      Dealt groupNumber groups after) ∧
    ∀ fault after, assignProcessorsToGroups config groupNumber groups = (.error fault, after) →
      (∃ reason, fault = .error reason) ∧ after = groups := by
  have ends : (assignProcessorsToGroups config groupNumber).Ends groups _ _ :=
    ends_assignProcessorsToGroups groupNumber
  simp only [lastGroup_of_pos positive fits, unassigned_iff nonempty positive fits] at ends
  refine ⟨?_, fun after isOk => ?_, fun fault after isError => ?_⟩
  · unfold Ends at ends
    split at ends
    next _ after isOk =>
      rw [isOk]
      exact iff_of_true rfl (not_not.mp fun overFull => ends.1 _ ⟨rfl, overFull⟩)
    next fault after isError =>
      rw [isError]
      exact iff_of_false (by simp) ends.2.2
  · obtain ⟨_, rfl⟩ := ends.of_ok isOk
    exact reachable.registered.dealt nonempty groupNumber
  · obtain ⟨same, isReason, _⟩ := ends.of_error isError
    exact ⟨⟨_, isReason⟩, same⟩

/-- Two accounts that have registered a processor each. -/
def twoProcessors : Groups Nat :=
  { freshGroups 2 3 with processorInfo := [⟨1, [127, 0, 0, 1], []⟩, ⟨2, [127, 0, 0, 1], []⟩] }

theorem processors_dealt_two :
    ∃ after, assignProcessorsToGroups mockRuntime 3 twoProcessors = (.ok (), after) ∧
      Dealt 3 twoProcessors after ∧ getGroupIds after 1 = [0, 2] ∧ getGroupIds after 2 = [1] := by
  have taken : run (groupingStep mockRuntime) (freshGroups 2 3)
      [.registerProcessor 1 [127, 0, 0, 1], .registerProcessor 2 [127, 0, 0, 1]] =
        some twoProcessors := by
    decide
  have reachable : GroupsReachable mockRuntime twoProcessors :=
    ⟨2, 3, Reaches.start.append (admitted_of_forall (fun _ _ _ => trivial) _) taken⟩
  obtain ⟨assigns, deals, _⟩ :=
    processors_dealt reachable (by decide) (show 1 ≤ 3 by decide) (by decide)
  have isOk := assigns.mpr (by decide)
  refine ⟨_, Prod.ext isOk rfl, deals _ (Prod.ext isOk rfl), by decide, by decide⟩

end Popsicle
