import Popsicle.GroupRuns

/-!
# Groupings that fail

The groups are stored before they are assigned to the processors, so a grouping for which
there are not enough of these leaves new groups with the assignment and the announcement of
old ones.  The assignment looks for the last group, which no groups do not have.
-/

namespace Popsicle

open Foundation Exec RoundRobin

variable {AccountId Native : Type} {config : Config AccountId Native}
  {groups before after : Groups AccountId} {parentHash startingBlock roundIndex : Nat}
  {candidates : List AccountId}

/-! ## Panics -/

/-- Forming groups never panics, in a build that panics when `u32` arithmetic leaves its range
and in one that wraps. -/
def GroupsSafely (config : Config AccountId Native) (parentHash : Nat)
    (candidates : List AccountId) (startingBlock roundIndex : Nat) (groups : Groups AccountId) :
    Prop :=
  ∀ overflowChecks site,
    (triggerGroup { config with overflowChecks } parentHash candidates startingBlock roundIndex
      groups).1 ≠ .error (.panic site)

theorem of_setGroupMetric {groupSize groupNumber : Nat}
    (accepted : setGroupMetric config groupSize groupNumber before = (.ok (), groups)) :
    groupSize ≤ config.maxGroupSize ∧ groupNumber ≤ config.maxGroupNumber ∧
      groups = { before with groupSize, groupNumber } := by
  have ends : (setGroupMetric config groupSize groupNumber).Ends before
      (fun _ after => groupSize ≤ config.maxGroupSize ∧ groupNumber ≤ config.maxGroupNumber ∧
        after = { before with groupSize, groupNumber }) fun _ _ => True := by
    simp only [setGroupMetric, ends_bind, ends_ensure, ends_write, implies_true, and_true]
    exact fun size number => ⟨size, number⟩
  exact ends.of_ok accepted

/-- A grouping that does not panic succeeds, or fails with an error. -/
theorem outcome_of_not_panic
    (noPanic : ∀ site, (triggerGroup config parentHash candidates startingBlock roundIndex
      groups).1 ≠ .error (.panic site)) :
    (∃ after, Grouped config parentHash candidates startingBlock roundIndex groups after) ∨
      ∃ reason after, NotGrouped config parentHash candidates groups (.error reason) after := by
  have ends : (triggerGroup config parentHash candidates startingBlock roundIndex).Ends groups
      _ _ :=
    ends_triggerGroup_grouped parentHash candidates startingBlock roundIndex
  unfold Ends at ends
  split at ends
  next _ after _ => exact .inl ⟨after, ends⟩
  next fault after isError =>
    cases fault with
    | error reason => exact .inr ⟨reason, after, ends⟩
    | panic site => exact absurd (congrArg Prod.fst isError) (noPanic site)

theorem notGrouped_of_panic {site : PanicSite}
    (isPanic : (triggerGroup config parentHash candidates startingBlock roundIndex
      groups).1 = .error (.panic site)) :
    ∃ after, NotGrouped config parentHash candidates groups (.panic site) after :=
  ⟨_, (ends_triggerGroup_grouped parentHash candidates startingBlock roundIndex).of_error
    (Prod.ext isPanic rfl)⟩

/-- With accepted metrics the groups are formed safely exactly if their product is a `u32`
and, where no groups are asked for, no processor is registered. -/
theorem groups_safely_iff {groupSize groupNumber : Nat} (fits : groupNumber ≤ u32Max)
    (accepted : setGroupMetric config groupSize groupNumber before = (.ok (), groups))
    (parentHash : Nat) (candidates : List AccountId) (startingBlock roundIndex : Nat) :
    GroupsSafely config parentHash candidates startingBlock roundIndex groups ↔
      groupSize * groupNumber ≤ u32Max ∧ (groupNumber = 0 → before.processorInfo = []) := by
  obtain ⟨size, number, rfl⟩ := of_setGroupMetric accepted
  constructor
  · intro safely
    have outcome := outcome_of_not_panic (safely true)
    constructor
    · by_contra tooLarge
      have overflows := Nat.not_le.mp tooLarge
      rcases outcome with ⟨after, grouped⟩ | ⟨reason, after, notGrouped⟩
      · exact grouped.cuttable.fits ⟨rfl, overflows⟩
      · cases notGrouped with
        | tooFew isProduct => exact isProduct ⟨rfl, overflows⟩
        | unassigned _ _ _ cuttable => exact cuttable.fits ⟨rfl, overflows⟩
    · rintro rfl
      by_contra some
      have underflows : Underflows { config with overflowChecks := true } 0 := ⟨rfl, .inl rfl⟩
      rcases outcome with ⟨after, grouped⟩ | ⟨reason, after, notGrouped⟩
      · exact grouped.assigned _ (.underflow some underflows)
      · cases notGrouped with
        | tooFew _ few => exact absurd few (Nat.not_lt_zero _)
        | unassigned _ _ _ _ unassigned =>
            cases unassigned with
            | noProcessors none => exact some none
            | tooMany _ numbered => exact numbered underflows
  · rintro ⟨isProduct, noneAsked⟩ overflowChecks site isPanic
    rcases notGrouped_of_panic isPanic with ⟨after, notGrouped⟩
    cases notGrouped with
    | excessive _ _ excessive =>
        rcases excessive with overflows | ⟨_, tooLarge⟩ | tooMany
        · exact absurd isProduct (Nat.not_le.mpr overflows)
        · exact absurd size (Nat.not_le.mpr tooLarge)
        · exact absurd number (Nat.not_le.mpr tooMany)
    | unassigned _ _ _ _ unassigned =>
        cases unassigned with
        | underflow some underflows =>
            dsimp only at some underflows
            rcases underflows.2 with none | outside
            · exact some (noneAsked none)
            · omega

/-- Nothing is asked for, and one processor is registered. -/
def noGroups : Groups Nat :=
  { freshGroups 2 0 with processorInfo := [⟨1, [127, 0, 0, 1], []⟩] }

/-- With one group the candidates are grouped safely, and without groups they are not. -/
theorem groups_safely_iff_one :
    GroupsSafely mockRuntime 0 [1, 2] 20 3 { noGroups with groupNumber := 1 } ∧
      ¬GroupsSafely mockRuntime 0 [1, 2] 20 3 noGroups := by
  have one : setGroupMetric mockRuntime 2 1 noGroups =
      (.ok (), { noGroups with groupNumber := 1 }) := rfl
  have none : setGroupMetric mockRuntime 2 0 noGroups = (.ok (), noGroups) := rfl
  rw [groups_safely_iff (by decide) one, groups_safely_iff (by decide) none]
  exact ⟨⟨by decide, by decide⟩, fun safely => absurd (safely.2 rfl) (by decide)⟩

/-- Accepted metrics do not make every grouping safe. -/
theorem not_groups_safely :
    ¬∀ (groupSize groupNumber : Nat) (before groups : Groups Nat), groupNumber ≤ u32Max →
      setGroupMetric mockRuntime groupSize groupNumber before = (.ok (), groups) →
      ∀ (parentHash : Nat) (candidates : List Nat) (startingBlock roundIndex : Nat),
        GroupsSafely mockRuntime parentHash candidates startingBlock roundIndex groups := by
  intro safely
  exact safely 2 0 noGroups noGroups (by decide) rfl 0 [1, 2] 20 3 true .arithmeticOverflow rfl

/-! ## Errors -/

/-- Where forming groups fails with an error, it leaves everything as it was. -/
def FailsCleanly (config : Config AccountId Native) (parentHash : Nat)
    (candidates : List AccountId) (startingBlock roundIndex : Nat) (groups : Groups AccountId) :
    Prop :=
  ∀ reason after, triggerGroup config parentHash candidates startingBlock roundIndex groups =
      (.error (.error reason), after) →
    after.groupMembers = groups.groupMembers ∧ after.processorInfo = groups.processorInfo ∧
      after.nextRound = groups.nextRound

/-- The registered processors cannot run all the groups. -/
def Understaffed (config : Config AccountId Native) (groups : Groups AccountId) : Prop :=
  groups.processorInfo = [] ∨ ¬Underflows config groups.groupNumber ∧
    groups.processorInfo.length * config.maxRunningApp < lastGroup groups.groupNumber + 1

/-- There are candidates for new groups, and no processors to run them. -/
structure Torn (config : Config AccountId Native) (parentHash : Nat)
    (candidates : List AccountId) (groups : Groups AccountId) : Prop where
  cuttable : Cuttable config groups candidates
  understaffed : Understaffed config groups
  areNew : (shuffleAccounts parentHash candidates).map (fun shuffled =>
    cut groups.groupSize groups.groupNumber shuffled.reverse) ≠ some groups.groupMembers

theorem understaffed_iff :
    Understaffed config groups ↔
      ∃ reason, Unassigned config groups.processorInfo groups.groupNumber (.error reason) := by
  constructor
  · intro understaffed
    by_cases isEmpty : groups.processorInfo = []
    · exact ⟨_, .noProcessors isEmpty⟩
    · obtain ⟨numbered, overFull⟩ := understaffed.resolve_left isEmpty
      exact ⟨_, .tooMany isEmpty numbered overFull⟩
  · rintro ⟨reason, unassigned⟩
    cases unassigned with
    | noProcessors none => exact .inl none
    | tooMany _ numbered overFull => exact .inr ⟨numbered, overFull⟩

theorem Unassigned.isError {processorInfo : List (ProcessorInfo AccountId)} {groupNumber : Nat}
    {reason : DispatchError} {fault : Fault}
    (fails : Unassigned config processorInfo groupNumber (.error reason))
    (unassigned : Unassigned config processorInfo groupNumber fault) :
    ∃ other, fault = .error other := by
  cases unassigned with
  | noProcessors | tooMany => exact ⟨_, rfl⟩
  | underflow some underflows =>
      cases fails with
      | noProcessors none => exact absurd none some
      | tooMany _ numbered => exact absurd underflows numbered

theorem fails_cleanly_iff :
    FailsCleanly config parentHash candidates startingBlock roundIndex groups ↔
      ¬Torn config parentHash candidates groups := by
  have ends : (triggerGroup config parentHash candidates startingBlock roundIndex).Ends groups
      _ _ :=
    ends_triggerGroup_grouped parentHash candidates startingBlock roundIndex
  constructor
  · rintro cleanly ⟨cuttable, understaffed, areNew⟩
    obtain ⟨reason, fails⟩ := understaffed_iff.mp understaffed
    unfold Ends at ends
    split at ends
    next => exact ends.assigned _ fails
    next fault after isError =>
      cases ends with
      | tooFew _ few => exact absurd cuttable.enough (Nat.not_le.mpr few)
      | excessive _ _ _ notCuttable => exact notCuttable cuttable
      | unassigned _ shuffled isShuffled _ unassigned =>
          obtain ⟨other, rfl⟩ := fails.isError unassigned
          have same := (cleanly other _ isError).1
          exact areNew (by rw [isShuffled, ← same]; rfl)
  · intro whole reason after isError
    cases ends.of_error isError with
    | tooFew => exact ⟨rfl, rfl, rfl⟩
    | unassigned _ shuffled isShuffled cuttable unassigned =>
        refine ⟨?_, rfl, rfl⟩
        by_contra areNew
        refine whole ⟨cuttable, understaffed_iff.mpr ⟨reason, unassigned⟩, ?_⟩
        rw [isShuffled]
        exact fun same => areNew (Option.some.inj same)

/-! ## Groups of one grouping -/

section Runs

variable [DecidableEq AccountId]

/-- The groups, the groups of each processor and the announcement are those of one grouping, or
there has not been any. -/
def StemFromOne (config : Config AccountId Native) (groups : Groups AccountId) : Prop :=
  (groups.groupMembers = [] ∧ groups.nextRound = (0, 0) ∧
    ∀ account, getGroupIds groups account = []) ∨
  ∃ parentHash candidates startingBlock roundIndex before after,
    GroupsReachable config before ∧
      triggerGroup config parentHash candidates startingBlock roundIndex before =
        (.ok (), after) ∧
      groups.groupMembers = after.groupMembers ∧ groups.nextRound = after.nextRound ∧
      ∀ account, getGroupIds groups account = getGroupIds after account

/-- Groups that differ in the metrics or in what does not matter stem from the same grouping. -/
theorem StemFromOne.congr (stem : StemFromOne config before)
    (members : after.groupMembers = before.groupMembers)
    (announced : after.nextRound = before.nextRound)
    (ids : ∀ account, getGroupIds after account = getGroupIds before account) :
    StemFromOne config after := by
  unfold StemFromOne
  simp only [members, announced, ids]
  exact stem

theorem getGroupIds_moved (groups : Groups AccountId) (who : AccountId) (ipAddress : List Nat)
    (account : AccountId) :
    getGroupIds { groups with
      processorInfo := groups.processorInfo.map fun processor =>
        if processor.account = who then { processor with ipAddress } else processor } account =
      getGroupIds groups account := by
  have sameAccount (processor : ProcessorInfo AccountId) :
      (if processor.account = who then { processor with ipAddress } else processor).account =
        processor.account := by
    split <;> rfl
  have sameGroups (processor : ProcessorInfo AccountId) :
      (if processor.account = who then { processor with ipAddress } else processor).groups =
        processor.groups := by
    split <;> rfl
  unfold getGroupIds
  simp only [List.find?_map, Function.comp_def, sameAccount]
  cases groups.processorInfo.find? fun processor => decide (processor.account = account) with
  | none => rfl
  | some processor => exact sameGroups processor

theorem getGroupIds_joined (groups : Groups AccountId) (who : AccountId) (ipAddress : List Nat)
    (account : AccountId) :
    getGroupIds { groups with
      processorInfo := groups.processorInfo ++ [{ account := who, ipAddress, groups := [] }] }
        account =
      getGroupIds groups account := by
  unfold getGroupIds
  simp only [List.find?_append]
  cases groups.processorInfo.find? fun processor => decide (processor.account = account) with
  | some processor => rfl
  | none =>
      by_cases isWho : who = account
      · simp [isWho]
      · simp [isWho]

/-- Whoever drops the result of a grouping goes on with what it leaves behind. -/
theorem groupingStep_triggerGroup
    (taken : groupingStep config before
      (.triggerGroup parentHash candidates startingBlock roundIndex) = some after) :
    triggerGroup config parentHash candidates startingBlock roundIndex before = (.ok (), after) ∨
      ∃ reason, triggerGroup config parentHash candidates startingBlock roundIndex before =
        (.error (.error reason), after) := by
  simp only [groupingStep, discardError, handle] at taken
  rcases outcome : triggerGroup config parentHash candidates startingBlock roundIndex before with
    ⟨(reason | site) | _, final⟩
  · rw [outcome] at taken
    cases taken
    exact .inr ⟨reason, rfl⟩
  · rw [outcome] at taken
    cases taken
  · rw [outcome] at taken
    cases taken
    exact .inl rfl

/-- The action does not tear the groups. -/
def KeepsWhole (config : Config AccountId Native) (groups : Groups AccountId) :
    GroupingAction AccountId → Prop
  | .triggerGroup parentHash candidates _ _ => ¬Torn config parentHash candidates groups
  | _ => True

theorem StemFromOne.step {action : GroupingAction AccountId} (stem : StemFromOne config before)
    (reachable : GroupsReachable config before) (whole : KeepsWhole config before action)
    (taken : groupingStep config before action = some after) : StemFromOne config after := by
  cases action with
  | setGroupMetric =>
      cases groupingTransition_of_step taken with
      | refused => exact stem
      | metric => exact stem.congr rfl rfl fun _ => rfl
  | registerProcessor =>
      cases groupingTransition_of_step taken with
      | refused => exact stem
      | moved => exact stem.congr rfl rfl (getGroupIds_moved before _ _)
      | joined => exact stem.congr rfl rfl (getGroupIds_joined before _ _)
  | triggerGroup parentHash candidates startingBlock roundIndex =>
      rcases groupingStep_triggerGroup taken with isOk | ⟨reason, isError⟩
      · exact .inr ⟨parentHash, candidates, startingBlock, roundIndex, before, after, reachable,
          isOk, rfl, rfl, fun _ => rfl⟩
      · obtain ⟨members, processors, announced⟩ := fails_cleanly_iff.mpr whole reason after isError
        exact stem.congr members announced fun account => by rw [getGroupIds, processors]; rfl

/-- A grouping that fails with an error changes nothing exactly if it does not tear the groups.
In runs in which none does, all that is stored stems from one grouping. -/
theorem failed_grouping_unchanged_iff (config : Config AccountId Native) :
    (∀ (groups : Groups AccountId) (parentHash : Nat) (candidates : List AccountId)
      (startingBlock roundIndex : Nat),
      FailsCleanly config parentHash candidates startingBlock roundIndex groups ↔
        ¬Torn config parentHash candidates groups) ∧
    ∀ (groupSize groupNumber : Nat) (groups : Groups AccountId),
      Reaches (groupingStep config) (KeepsWhole config) (freshGroups groupSize groupNumber)
        groups → StemFromOne config groups := by
  refine ⟨fun groups parentHash candidates startingBlock roundIndex => fails_cleanly_iff,
    fun groupSize groupNumber groups reaches => ?_⟩
  induction reaches with
  | start => exact .inl ⟨rfl, rfl, fun _ => rfl⟩
  | next action reaches whole taken ih =>
      have reachable : GroupsReachable config _ :=
        ⟨groupSize, groupNumber, reaches.weaken fun _ _ _ => trivial⟩
      exact ih.step reachable whole taken

end Runs

/-- A processor joins and six candidates are grouped.  They are not enough for a group more. -/
def wholeActions : List (GroupingAction Nat) :=
  [.registerProcessor 9 [127, 0, 0, 1], .triggerGroup 0 [1, 2, 3, 4, 5, 6] 20 3,
    .setGroupMetric 2 4, .triggerGroup 0 [1, 2, 3, 4, 5, 6] 40 4]

/-- A grouping without enough candidates is no harm, and leaves the groups of the one before. -/
theorem failed_grouping_unchanged_iff_few :
    FailsCleanly mockRuntime 0 [1, 2] 20 2 (freshGroups 3 5) ∧
      ∃ groups, run (groupingStep mockRuntime) (freshGroups 2 3) wholeActions = some groups ∧
        groups.groupMembers.length = 3 ∧ groups.groupNumber = 4 ∧ groups.nextRound = (20, 3) ∧
        getGroupIds groups 9 = [0, 1, 2] ∧ StemFromOne mockRuntime groups := by
  obtain ⟨cleanly, stem⟩ := failed_grouping_unchanged_iff mockRuntime
  refine ⟨(cleanly _ _ _ _ _).mpr fun torn => absurd torn.cuttable.enough (by decide), ?_⟩
  have admitted : Admitted (groupingStep mockRuntime) (KeepsWhole mockRuntime) (freshGroups 2 3)
      wholeActions := by
    refine ⟨trivial, fun _ registered => ⟨fun torn => ?_, fun _ grouped => ⟨trivial,
      fun _ metric => ⟨fun torn => ?_, fun _ _ => trivial⟩⟩⟩⟩
    · cases registered
      rcases torn.understaffed with none | ⟨_, tooMany⟩
      · cases none
      · exact absurd tooMany (by decide)
    · cases registered
      cases grouped
      cases metric
      exact absurd torn.cuttable.enough (by decide)
  exact ⟨_, rfl, rfl, rfl, rfl, rfl, stem 2 3 _ (Reaches.start.append admitted rfl)⟩

/-- Without a processor six candidates are still grouped. -/
theorem failed_grouping_changes :
    ¬∀ groups : Groups Nat, GroupsReachable mockRuntime groups →
      ∀ (parentHash : Nat) (candidates : List Nat) (startingBlock roundIndex : Nat),
        FailsCleanly mockRuntime parentHash candidates startingBlock roundIndex groups := by
  intro cleanly
  have unchanged := cleanly (freshGroups 2 3) ⟨2, 3, .start⟩ 0 [1, 2, 3, 4, 5, 6] 20 3
    (.grouping .noProcessors) _ rfl
  exact absurd unchanged.1 (by decide)

end Popsicle
