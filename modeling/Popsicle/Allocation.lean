import Popsicle.Container
import Popsicle.Groups

/-!
# Applications and groups are matched one to one

An `Allocation` only counts the applications and those that are given to groups.  The
storage of the pallet represents one in every state a run reaches, and every step of
the pallet is a step of the counters: the groups get the applications in order, each
group keeps its own, and no group waits while there is a free one.
-/

namespace Popsicle

open Foundation Exec

variable {AccountId : Type} {config : ContainerConfig}

-- Comparing a successor with the largest `u32` would be unfolded one by one.
attribute [local irreducible] u32Result

/-! ## Counters -/

/-- How many applications there are, and how many of them are given to groups. -/
@[ext] structure Allocation where
  apps : Nat
  given : Nat
  given_le : given ≤ apps

namespace Allocation

/-- No applications. -/
def none : Allocation := ⟨0, 0, le_refl 0⟩

/-- One more application. -/
def register (allocation : Allocation) : Allocation :=
  ⟨allocation.apps + 1, allocation.given, allocation.given_le.trans (Nat.le_succ _)⟩

/-- Every group gets an application, as long as there are any. -/
def finalize (allocation : Allocation) (groups : Nat) : Allocation :=
  ⟨allocation.apps, max allocation.given (min groups allocation.apps),
    max_le allocation.given_le (min_le_right _ _)⟩

/-- One group more gets an application. -/
def give (allocation : Allocation) (isFree : allocation.given < allocation.apps) : Allocation :=
  ⟨allocation.apps, allocation.given + 1, isFree⟩

/-- Which applications are in use. -/
def usage (allocation : Allocation) : List Bool :=
  (List.range allocation.apps).map fun app => decide (app < allocation.given)

variable {allocation : Allocation}

@[simp] theorem length_usage : allocation.usage.length = allocation.apps := by simp [usage]

theorem getElem?_usage (app : Nat) : allocation.usage[app]? =
    if app < allocation.apps then some (decide (app < allocation.given)) else .none := by
  rw [usage, List.getElem?_map]
  split
  next isApp => simp [isApp]
  next notApp => simp [Nat.le_of_not_lt notApp]

theorem usage_eq_true {app : Nat} :
    allocation.usage[app]? = some true ↔ app < allocation.given := by
  have atMost := allocation.given_le
  rw [getElem?_usage]
  split
  next => simp
  next notApp => simpa using by omega

theorem usage_eq_false {app : Nat} :
    allocation.usage[app]? = some false ↔ allocation.given ≤ app ∧ app < allocation.apps := by
  rw [getElem?_usage]
  split
  next isApp => simpa using fun _ => isApp
  next notApp => simpa using fun _ => by omega

theorem usage_register : allocation.register.usage = allocation.usage ++ [false] := by
  have notGiven : ¬allocation.apps < allocation.given := Nat.not_lt.mpr allocation.given_le
  simp only [usage, register, List.range_succ, List.map_append, List.map_cons, List.map_nil,
    notGiven, decide_false]
  rfl

theorem usage_give (isFree : allocation.given < allocation.apps) :
    (allocation.give isFree).usage = allocation.usage.set allocation.given true := by
  apply List.ext_getElem?
  intro app
  rw [List.getElem?_set, getElem?_usage, getElem?_usage, length_usage]
  simp only [give]
  by_cases isNext : allocation.given = app
  · subst isNext
    simp [isFree]
  · have same : (app < allocation.given + 1) = (app < allocation.given) :=
      propext (by omega)
    simp [isNext, same]

theorem finalize_of_full (isFull : allocation.given = allocation.apps) (groups : Nat) :
    allocation.finalize groups = allocation := by
  refine Allocation.ext rfl ?_
  simp [finalize, isFull]

end Allocation

/-! ## What is stored -/

/-- The storage of the pallet, as it is determined by an allocation. -/
structure Represents (config : ContainerConfig) (container : Container AccountId)
    (allocation : Allocation) : Prop where
  nextApplicationId : container.nextApplicationId = (allocation.apps + 1) % (u32Max + 1)
  atMost : allocation.apps ≤ config.maxRuningApp
  appInfo : ∀ app, (container.appInfoMap.get app).isSome = true ↔ 1 ≤ app ∧ app ≤ allocation.apps
  inuse : container.inuseMap = allocation.usage
  groupApp : ∀ group, container.groupAppMap.get group =
    if group < allocation.given then some (group + 1) else none

section Finalize

variable {container : Container AccountId} {allocation : Allocation}

/-- A group without an application is given the first free one, if there is one. -/
theorem ends_allocApp (represents : Represents config container allocation) {group index : Nat}
    (isNext : allocation.given < allocation.apps → group = allocation.given)
    (atMost : index ≤ allocation.given) {remaining : Nat}
    (isRest : index + remaining = allocation.apps) :
    (allocApp group allocation.usage index remaining).Ends container
      (fun inuseApps after => ∃ next, Represents config after next ∧ inuseApps = next.usage ∧
        next = allocation.finalize (allocation.given + 1))
      (fun _ _ => False) := by
  induction remaining generalizing index with
  | zero =>
      have given := allocation.given_le
      have isFull : allocation.given = allocation.apps := by omega
      exact ⟨allocation, represents, rfl, (allocation.finalize_of_full isFull _).symm⟩
  | succ remaining ih =>
      simp only [allocApp, ends_ite, Allocation.usage_eq_false, ends_bind, ends_read, ends_ensure,
        ends_write, ends_pure]
      refine ⟨fun isFree => ⟨fun inside => ?_, fun outside => ?_⟩, fun notFree => ?_⟩
      · obtain rfl : index = allocation.given := by omega
        obtain rfl := isNext isFree.2
        refine ⟨allocation.give isFree.2, ?_, (allocation.usage_give isFree.2).symm, ?_⟩
        · refine ⟨represents.nextApplicationId, represents.atMost, represents.appInfo, ?_, ?_⟩
          · rw [represents.inuse, ← Allocation.usage_give isFree.2]
          · intro query
            have fits := represents.atMost.trans config.maxRuningApp_le
            have isId : (allocation.given + 1) % (u32Max + 1) = allocation.given + 1 :=
              Nat.mod_eq_of_lt (by omega)
            rw [StorageMap.get_insert, represents.groupApp, isId, Allocation.give]
            grind
        · refine Allocation.ext rfl ?_
          simp only [Allocation.finalize, Allocation.give]
          omega
      · rw [represents.inuse, Allocation.length_usage] at outside
        exact outside isFree.2
      · exact ih (by omega) (by omega)

/-- The groups from `start` on are gone through, where those before have applications
unless there are no free ones. -/
theorem ends_allocApps (represents : Represents config container allocation) {start count : Nat}
    (covered : start ≤ allocation.given ∨ allocation.given = allocation.apps) :
    (allocApps (List.range' start count) allocation.usage).Ends container
      (fun _ after => Represents config after (allocation.finalize (start + count)))
      (fun _ _ => False) := by
  have atMost := allocation.given_le
  induction count generalizing container allocation start with
  | zero =>
      have same : allocation.finalize (start + 0) = allocation := by
        refine Allocation.ext rfl ?_
        simp only [Allocation.finalize]
        omega
      rw [same]
      exact represents
  | succ count ih =>
      have assoc : start + (count + 1) = start + 1 + count := by omega
      simp only [List.range'_succ, allocApps, ends_bind, ends_read, represents.groupApp, assoc]
      split
      next given isGiven =>
        have before : start < allocation.given := by
          by_contra notBefore
          simp [notBefore] at isGiven
        exact ih represents (by omega) atMost
      next notGiven =>
        have notBefore : ¬start < allocation.given := by
          intro before
          simp [before] at notGiven
        rw [ends_bind, Allocation.length_usage]
        refine (ends_allocApp represents (by omega) (Nat.zero_le _) (Nat.zero_add _)).imp ?_
        rintro _ middle ⟨next, represented, rfl, rfl⟩
        have merged : (allocation.finalize (allocation.given + 1)).finalize (start + 1 + count) =
            allocation.finalize (start + 1 + count) := by
          refine Allocation.ext rfl ?_
          simp only [Allocation.finalize]
          omega
        rw [← merged]
        refine ih represented ?_ (Allocation.given_le _)
        simp only [Allocation.finalize]
        omega

theorem ends_onFinalize (represents : Represents config container allocation)
    (groups : Groups AccountId) :
    (onFinalize groups).Ends container
      (fun _ after => Represents config after (allocation.finalize groups.groupMembers.length))
      (fun _ _ => False) := by
  simp only [onFinalize, allGroupIds, ends_bind, ends_read, represents.inuse,
    List.range_eq_range']
  refine (ends_allocApps represents (.inl (Nat.zero_le _))).imp fun _ _ represented => ?_
  rwa [Nat.zero_add] at represented

end Finalize

/-! ## Steps -/

section Step

variable {hosting after : Hosting AccountId} {allocation : Allocation}

theorem ends_registerApp {container : Container AccountId}
    (represents : Represents config container allocation) (who : AccountId)
    (appHash projectName fileName : Bytes) (size : Nat) (args log : Option Bytes)
    (isDockerImage : Option Bool) (dockerImage : Option Bytes) :
    (registerApp config who appHash projectName fileName size args log isDockerImage
      dockerImage).Ends container
      (fun _ after => Represents config after allocation.register) (fun _ _ => True) := by
  simp only [registerApp, ends_bind, ends_read, ends_write, ends_u32Result_nat, ends_ensure]
  refine ⟨fun _ => ⟨fun hasRoom => ?_, fun _ => trivial⟩, fun _ => trivial⟩
  rw [represents.inuse, Allocation.length_usage] at hasRoom
  have fits := config.maxRuningApp_le
  have isId : (allocation.apps + 1) % (u32Max + 1) = allocation.apps + 1 :=
    Nat.mod_eq_of_lt (by omega)
  refine ⟨?_, hasRoom, fun app => ?_, ?_, represents.groupApp⟩
  · rw [represents.nextApplicationId, isId]
    rfl
  · rw [represents.nextApplicationId, isId, StorageMap.get_insert]
    have appInfo := represents.appInfo app
    simp only [Allocation.register]
    grind
  · rw [represents.inuse, Allocation.usage_register]

/-- How many applications are given to groups after an action. -/
def allotted (hosting : Hosting AccountId) (given : Nat) : HostingAction AccountId → Nat
  | .finalize =>
      max given (min hosting.groups.groupMembers.length hosting.container.inuseMap.length)
  | _ => given

theorem ends_containerDispatch {container : Container AccountId}
    (represents : Represents config container allocation) (origin : Origin AccountId)
    (call : ContainerCall) :
    (containerDispatch config origin call).Ends container
      (fun _ after => Represents config after allocation ∨
        Represents config after allocation.register)
      (fun _ after => Represents config after allocation) := by
  cases call with
  | registerApp appHash projectName fileName size args log isDockerImage dockerImage =>
      simp only [containerDispatch, ends_transactional, ends_bind, ends_ensureSigned]
      refine ⟨fun who _ => ?_, fun _ => represents⟩
      have ends := ends_registerApp represents who appHash projectName fileName size args log
        isDockerImage dockerImage
      exact ends.mono (fun _ _ registered => .inr registered) fun _ _ _ => represents
  | setDefaultUrl url =>
      simp only [containerDispatch, setDefaultUrl, ends_transactional, ends_bind,
        ends_ensureRoot, ends_write]
      refine ⟨fun _ => .inl ?_, fun _ => represents⟩
      exact ⟨represents.nextApplicationId, represents.atMost, represents.appInfo,
        represents.inuse, represents.groupApp⟩

/-- Every step of the pallet is one of the counters. -/
theorem Represents.step (represents : Represents config hosting.container allocation)
    {action : HostingAction AccountId} (taken : hostingStep config hosting action = some after) :
    ∃ next, Represents config after.container next ∧
      next.given = allotted hosting allocation.given action := by
  cases action with
  | extrinsic origin call =>
      cases taken
      have ends := ends_containerDispatch represents origin call
      unfold Ends at ends
      dsimp only
      split at ends
      next value container run =>
        rw [run]
        rcases ends with same | registered
        · exact ⟨allocation, same, rfl⟩
        · exact ⟨allocation.register, registered, rfl⟩
      next fault container run =>
        rw [run]
        exact ⟨allocation, ends, rfl⟩
  | regroup groups =>
      cases taken
      exact ⟨allocation, represents, rfl⟩
  | finalize =>
      have ends := ends_onFinalize represents hosting.groups
      simp only [hostingStep] at taken
      split at taken
      next container run =>
        cases taken
        refine ⟨_, ends.of_ok run, ?_⟩
        rw [allotted, represents.inuse, Allocation.length_usage]
        rfl
      next => cases taken

end Step

/-! ## Runs -/

/-- `NextApplicationID - 1`, as a `u32`. -/
def Container.applications (container : Container AccountId) : Nat :=
  (container.nextApplicationId + u32Max) % (u32Max + 1)

/-- The first `given` groups have an application each, in order, and these are the
applications in use. -/
structure Matched (container : Container AccountId) (given : Nat) : Prop where
  inuseLength : container.inuseMap.length = container.applications
  appInfo : ∀ app, (container.appInfoMap.get app).isSome = true ↔
    1 ≤ app ∧ app ≤ container.applications
  groupApp : ∀ group app, container.groupAppMap.get group = some app ↔
    group < given ∧ app = group + 1
  inuse : ∀ index, container.inuseMap[index]? = some true ↔ index < given

section Run

variable {start hosting : Hosting AccountId} {container : Container AccountId}
  {allocation : Allocation}

theorem Represents.matched (represents : Represents config container allocation) :
    Matched container allocation.given := by
  have fits := represents.atMost.trans config.maxRuningApp_le
  have applications : container.applications = allocation.apps := by
    rw [Container.applications, represents.nextApplicationId, u32Max] at *
    omega
  refine ⟨?_, fun app => ?_, fun group app => ?_, fun index => ?_⟩
  · rw [represents.inuse, Allocation.length_usage, applications]
  · rw [represents.appInfo, applications]
  · rw [represents.groupApp]
    grind
  · rw [represents.inuse, Allocation.usage_eq_true]

theorem Represents.kept (represents : Represents config hosting.container allocation)
    {later : Hosting AccountId}
    (reaches : Reaches (hostingStep config) (fun _ _ => True) hosting later) :
    ∃ next, Represents config later.container next ∧ allocation.given ≤ next.given := by
  induction reaches with
  | start => exact ⟨allocation, represents, le_refl _⟩
  | next action _ _ taken ih =>
      obtain ⟨middle, represented, atMost⟩ := ih
      obtain ⟨next, isNext, given⟩ := represented.step taken
      refine ⟨next, isNext, atMost.trans ?_⟩
      rw [given]
      cases action with
      | finalize => exact le_max_left _ _
      | extrinsic | regroup => exact le_refl _

theorem represents_of_reaches (empty : start.container = .default)
    (reaches : Reaches (hostingStep config) (fun _ _ => True) start hosting) :
    ∃ allocation, Represents config hosting.container allocation := by
  have initial : Represents config start.container .none := by
    rw [empty]
    refine ⟨rfl, Nat.zero_le _, fun app => ?_, rfl, fun group => rfl⟩
    have isEmpty : ¬(1 ≤ app ∧ app ≤ Allocation.none.apps) := fun inside =>
      absurd (inside.1.trans inside.2) (by decide)
    simp [Container.default, isEmpty]
  obtain ⟨allocation, represents, _⟩ := initial.kept reaches
  exact ⟨allocation, represents⟩

/-- At the end of a block no application is free while a group has none. -/
theorem Represents.finalizes (represents : Represents config hosting.container allocation) :
    ∃ after, hostingStep config hosting .finalize = some after ∧
      ∀ index : Nat, after.container.inuseMap[index]? = some false →
        ∀ group ∈ allGroupIds after.groups,
          (after.container.groupAppMap.get group).isSome = true := by
  obtain ⟨_, container, run, represented⟩ :=
    (ends_onFinalize represents hosting.groups).exists_ok
  refine ⟨{ hosting with container }, by simp only [hostingStep, run],
    fun index isFree group member => ?_⟩
  dsimp only at isFree member ⊢
  rw [represented.inuse, Allocation.usage_eq_false] at isFree
  rw [allGroupIds, List.mem_range] at member
  simp only [Allocation.finalize] at isFree
  have isGiven : group < max allocation.given (min hosting.groups.groupMembers.length
      allocation.apps) := by
    omega
  simp [represented.groupApp, Allocation.finalize, isGiven]

/-- Applications are given to groups one to one, in order, and none is wasted. -/
theorem apps_matched (empty : start.container = .default)
    (reaches : Reaches (hostingStep config) (fun _ _ => True) start hosting) :
    ∃ given, Matched hosting.container given ∧
      (config.maxRuningApp < u32Max →
        hosting.container.inuseMap.length + 1 = hosting.container.nextApplicationId) ∧
      (∀ action after, hostingStep config hosting action = some after →
        Matched after.container (allotted hosting given action)) ∧
      (∃ after, hostingStep config hosting .finalize = some after ∧
        ∀ index : Nat, after.container.inuseMap[index]? = some false →
          ∀ group ∈ allGroupIds after.groups,
            (after.container.groupAppMap.get group).isSome = true) ∧
      ∀ later, Reaches (hostingStep config) (fun _ _ => True) hosting later →
        ∀ group app, hosting.container.groupAppMap.get group = some app →
          later.container.groupAppMap.get group = some app ∧
            ∀ other, later.container.groupAppMap.get other = some app → other = group := by
  obtain ⟨allocation, represents⟩ := represents_of_reaches empty reaches
  refine ⟨allocation.given, represents.matched, fun inside => ?_, fun action after taken => ?_,
    represents.finalizes, fun later continued group app isGiven => ?_⟩
  · have atMost := represents.atMost
    have isId : (allocation.apps + 1) % (u32Max + 1) = allocation.apps + 1 :=
      Nat.mod_eq_of_lt (by omega)
    rw [represents.inuse, represents.nextApplicationId, Allocation.length_usage, isId]
  · obtain ⟨next, represented, given⟩ := represents.step taken
    rw [← given]
    exact represented.matched
  · obtain ⟨next, represented, atLeast⟩ := represents.kept continued
    obtain ⟨inside, rfl⟩ := (represents.matched.groupApp group app).mp isGiven
    have groupApp := represented.matched.groupApp
    refine ⟨(groupApp _ _).mpr ⟨inside.trans_le atLeast, rfl⟩, fun other alsoGiven => ?_⟩
    exact Nat.succ.inj ((groupApp _ _).mp alsoGiven).2.symm

end Run

/-- A pallet without applications, for two groups. -/
def twoGroups : Hosting Nat where
  groups :=
    { groupSize := 1, groupNumber := 2, groupMembers := [[1], [2]], nextRound := (0, 0)
      processorInfo := [] }
  container := .default

/-- The constants of the runtime. -/
def hundredApps : ContainerConfig := ⟨100, by decide, true⟩

/-- A registration and the end of a block. -/
def registeredRun : List (HostingAction Nat) :=
  [.extrinsic (.signed 1) (.registerApp [1] [2] [3] 123 none none none none), .finalize]

theorem apps_matched_registered :
    ∃ hosting, Reaches (hostingStep hundredApps) (fun _ _ => True) twoGroups hosting ∧
      hosting.container.groupAppMap.get 0 = some 1 ∧
      ∃ given, Matched hosting.container given := by
  have shown : ((run (hostingStep hundredApps) twoGroups registeredRun).map fun hosting =>
      hosting.container.groupAppMap.get 0) = some (some 1) := by
    decide +kernel
  obtain ⟨hosting, taken, isGiven⟩ := Option.map_eq_some_iff.mp shown
  have reaches : Reaches (hostingStep hundredApps) (fun _ _ => True) twoGroups hosting :=
    Reaches.start.append (admitted_of_forall (fun _ _ _ => trivial) twoGroups) taken
  obtain ⟨given, matched, _⟩ := apps_matched rfl reaches
  exact ⟨hosting, reaches, isGiven, given, matched⟩

end Popsicle
