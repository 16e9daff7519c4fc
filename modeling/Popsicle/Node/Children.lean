import Popsicle.Node.Instances
import Popsicle.Node.Worker

/-!
# Children

The tasks of the node may end at any point and take turns in any order.  A child that no
instance refers to is never killed.  Here it is told exactly which sections leave such a
child behind.
-/

namespace Popsicle.Node

open Foundation Exec

variable {host after : Host} {machine : Machine} {slot : Slot} {index : InstanceIndex}
  {dataPath : Bytes} {appInfo : DownloadInfo} {runArgs optionArgs : Option Bytes}
  {startType : StartType} {answers : RunAnswers}

/-! ## However a section ends -/

/-- The machine once an instance was to be stopped. -/
def Machine.halted (machine : Machine) (slot : Slot) (answers : StopAnswers) : Machine :=
  if slot.docker || answers.killed then machine.stopped slot answers else machine

/-- What an attempt to stop an instance leaves, whether or not it ends with an error. -/
theorem ends_stopInstance_halted {answers : StopAnswers} :
    let halted := host.machine.halted (host.app.slot index) answers
    (stopInstance index answers).Ends host (fun _ after => after.machine = halted)
      fun _ after => after.machine = halted := by
  intro halted
  generalize isSlot : host.app.slot index = slot at halted
  simp only [stopInstance, ends_bind, ends_read, isSlot, ends_ite, halted, Machine.halted,
    Machine.stopped]
  constructor
  · intro isDocker
    cases isName : slot.dockerName with
    | none => simp [isDocker]
    | some name =>
        simp only [isDocker, ends_bind, ends_require, ends_attempt]
        refine ⟨fun container isContainer => ?_, fun notText => by simp [notText]⟩
        refine ends_removeDockerContainer.mono ?_ ?_
        · rintro _ after ⟨_, removed⟩
          simp [removed, isContainer]
        · rintro _ after ⟨isError, _, removed⟩
          subst isError
          simp [removed, isContainer]
  · intro notDocker
    cases isProcess : slot.process with
    | none => simp [notDocker]
    | some child =>
        simp only [notDocker, ends_bind, ends_ensure, ends_onMachine]
        exact ⟨fun killed => ⟨by simp [killed], by simp [killed]⟩, by simp +contextual⟩

/-- The attempt to replace the other instance, whether or not it ends with an error. -/
theorem ends_replaceInstance_halted {process : Option Child} :
    let halted := host.machine.halted host.app.other answers.otherStopped
    (replaceInstance process answers).Ends host
      (fun _ after => Stoppable host.app.other answers.otherStopped ∧
        after.app = host.app.replaced process ∧ after.machine = halted)
      fun _ after => ¬Stoppable host.app.other answers.otherStopped ∧
        after.app = host.app ∧ after.machine = halted := by
  intro halted
  refine (ends_replaceInstance.and ?_).mono (fun _ _ ends => ⟨ends.1.1, ends.1.2.1, ends.2⟩)
    fun _ _ ends => ⟨ends.1.2.1, ends.1.2.2, ends.2⟩
  simp only [replaceInstance, ends_bind, ends_read, ends_ite, ends_onApp]
  exact ends_stopInstance_halted.mono (fun _ _ isHalted => ⟨fun _ => isHalted, fun _ => isHalted⟩)
    fun _ _ => id

theorem Stoppable.halted {answers : StopAnswers} (stoppable : Stoppable slot answers) :
    machine.halted slot answers = machine.stopped slot answers := by
  unfold Machine.halted
  by_cases isDocker : slot.docker
  · simp [isDocker]
  · rw [Stoppable, if_neg isDocker] at stoppable
    unfold Machine.stopped
    cases isProcess : slot.process with
    | none => simp [isDocker]
    | some child => simp [stoppable (by simp [isProcess])]

/-- No new child runs, and some may not any more. -/
structure Fewer (before after : Machine) : Prop where
  spawned : after.spawned = before.spawned
  children : after.children.Sublist before.children

theorem Fewer.rfl : Fewer machine machine := ⟨Eq.refl _, .refl _⟩

theorem Fewer.of_eq {before after : Machine} (same : after = before) : Fewer before after := by
  subst same
  exact .rfl

theorem children_stopped {answers : StopAnswers} :
    (machine.stopped slot answers).children =
      if slot.docker then machine.children
      else machine.children.filter (slot.process ≠ some ·) := by
  unfold Machine.stopped
  by_cases isDocker : slot.docker
  · simp only [isDocker, if_true]
    split
    · split <;> rfl
    · rfl
  · cases slot.process with
    | none => simp [isDocker]
    | some child => simp [isDocker, Machine.kill, eq_comm]

theorem fewer_stopped {answers : StopAnswers} : Fewer machine (machine.stopped slot answers) := by
  refine ⟨Machine.stopped_spawned .., ?_⟩
  rw [children_stopped]
  split
  · exact .refl _
  · exact List.filter_sublist

theorem fewer_halted {answers : StopAnswers} : Fewer machine (machine.halted slot answers) := by
  unfold Machine.halted
  split
  · exact fewer_stopped
  · exact .rfl

/-- What a run leaves of the record and of the machine, however it ends. -/
inductive Ran (host : Host) (dataPath : Bytes) (appInfo : DownloadInfo) (runArgs : Option Bytes)
    (startType : StartType) (answers : RunAnswers) (after : Host) : Prop where
  | stops (notFills : ¬Fills host.app dataPath appInfo runArgs answers)
      (sameApp : after.app = host.app) (fewer : Fewer host.machine after.machine)
  | fails (fills : Fills host.app dataPath appInfo runArgs answers) (isRun : startType = .run)
      (notStoppable : ¬Stoppable host.app.other answers.otherStopped)
      (sameApp : after.app = host.app) (optionArgs : Option Bytes)
      (halted : after.machine = ((host.machine.stopped host.app.current answers.oldStopped).started
        appInfo optionArgs answers).halted host.app.other answers.otherStopped)
  | passes (passes : Passes host.app dataPath appInfo runArgs startType answers)
      (isApp : after.app = host.app.ran appInfo (startedChild host.machine appInfo) startType)
      (optionArgs : Option Bytes)
      (isMachine : after.machine =
        host.app.machineRan host.machine appInfo optionArgs answers startType)

theorem ran_processRunTask :
    Ran host dataPath appInfo runArgs startType answers
      (processRunTask dataPath appInfo runArgs optionArgs startType answers host).2 := by
  apply Ends.last
  simp only [processRunTask, runSection, ends_bind, ends_read]
  refine ends_prepareRun.mono ?_ ?_
  · rintro args prepared ⟨isPrepared, sameApp, sameMachine⟩
    refine (ends_stopInstance.and ends_stopInstance_halted).mono ?_ ?_
    · rintro _ stopped ⟨⟨stoppable, sameApp', isStopped⟩, _⟩
      rw [sameApp, sameMachine] at isStopped
      rw [sameApp] at stoppable sameApp'
      refine ends_startInstance.mono ?_ ?_
      · rintro process started ⟨startable, isProcess, sameApp'', isStarted⟩
        have fills : Fills host.app dataPath appInfo runArgs answers :=
          ⟨isPrepared, stoppable, startable⟩
        rw [sameApp'] at sameApp''
        rw [isStopped] at isProcess isStarted
        subst isProcess
        cases startType with
        | sync =>
            rw [fillInstance, ends_onApp]
            refine .passes ⟨fills, by rintro ⟨⟩⟩ ?_ optionArgs isStarted
            simp [sameApp'', RunningApp.ran, RunningApp.filled]
        | run =>
            refine ends_replaceInstance_halted.mono ?_ ?_
            · rintro _ after ⟨otherStoppable, isReplaced, halted⟩
              rw [sameApp''] at otherStoppable isReplaced halted
              refine .passes ⟨fills, fun _ => otherStoppable⟩ ?_ optionArgs ?_
              · simpa [RunningApp.ran] using isReplaced
              · rw [halted, otherStoppable.halted, isStarted]
                rfl
            · rintro stop after ⟨notStoppable, sameApp''', halted⟩
              rw [sameApp''] at notStoppable sameApp''' halted
              refine .fails fills rfl notStoppable sameApp''' optionArgs ?_
              rw [halted, isStarted]
              rfl
      · rintro stop after ⟨notStartable, _, untouched⟩
        refine .stops (fun fills => notStartable fills.startable) ?_ ?_
        · rw [untouched.app, sameApp']
        · rw [untouched.machine, isStopped]
          exact fewer_stopped
    · rintro stop after ⟨⟨_, notStoppable, sameApp'⟩, halted⟩
      rw [sameApp] at notStoppable sameApp' halted
      refine .stops (fun fills => notStoppable fills.stoppable) sameApp' ?_
      rw [halted, sameMachine]
      exact fewer_halted
  · rintro stop after ⟨_, notPrepared, untouched⟩
    exact .stops (fun fills => notPrepared fills.prepared) untouched.app (.of_eq untouched.machine)

/-! ## Which children are left -/

theorem children_started :
    (machine.started appInfo optionArgs answers).children =
      (startedChild machine appInfo).toList ++ machine.children := by
  unfold Machine.started startedChild
  split
  · split
    · split <;> rfl
    · rfl
  · rfl

theorem spawned_le_started :
    machine.spawned ≤ (machine.started appInfo optionArgs answers).spawned := by
  unfold Machine.started
  split
  · split
    · split <;> rfl
    · rfl
  · exact Nat.le_succ _

theorem startedChild_eq_some {child : Child} :
    startedChild machine appInfo = some child ↔
      appInfo.isDockerImage = false ∧ machine.spawned = child := by
  unfold startedChild
  split <;> simp_all

theorem startedChild_native (native : appInfo.isDockerImage = false) :
    startedChild machine appInfo = some machine.spawned :=
  startedChild_eq_some.mpr ⟨native, rfl⟩

theorem startedChild_lt_spawned {child : Child}
    (isChild : startedChild machine appInfo = some child) :
    child < (machine.started appInfo optionArgs answers).spawned := by
  obtain ⟨native, rfl⟩ := startedChild_eq_some.mp isChild
  simp [Machine.started, native, Machine.spawn]

/-- Each child that runs is the process of one of the instances, and no two are the same. -/
structure Minded (host : Host) : Prop where
  known : ∀ child ∈ host.machine.children, host.app.AnyInstance (·.process = some child)
  apart : ∀ child, host.app.current.process = some child → host.app.other.process ≠ some child
  spawned : ∀ child, host.app.AnyInstance (·.process = some child) → child < host.machine.spawned
  nodup : host.machine.children.Nodup

/-- The current instance is taken for a container, and is a process that runs. -/
def Disguised (host : Host) : Prop :=
  host.app.current.docker ∧ ∃ child ∈ host.app.current.process, child ∈ host.machine.children

/-- A section that leaves a child behind.  A native application is started in the place of a
container or of a process that is not stopped; or a process is not stopped since it is taken
for a container. -/
def Drops (host : Host) (dataPath : Bytes) (appInfo : DownloadInfo) (runArgs : Option Bytes)
    (startType : StartType) (answers : RunAnswers) : Prop :=
  Fills host.app dataPath appInfo runArgs answers ∧
    if startType = .run ∧
        (host.app.other.docker ∨ ¬Stoppable host.app.other answers.otherStopped) then
      appInfo.isDockerImage = false
    else Disguised host

section Minded

variable {child : Child}

theorem Minded.spawned_ne (minded : Minded host) {slot : Slot}
    (isSlot : slot = host.app.current ∨ slot = host.app.other) :
    slot.process ≠ some host.machine.spawned := by
  intro isNext
  refine lt_irrefl _ (minded.spawned _ (RunningApp.anyInstance_iff.mpr ?_))
  rcases isSlot with rfl | rfl
  · exact .inl isNext
  · exact .inr isNext

theorem Minded.spawned_not_mem (minded : Minded host) :
    host.machine.spawned ∉ host.machine.children := by
  intro runs
  exact lt_irrefl _ (minded.spawned _ (minded.known _ runs))

/-- Where no instance changes, children that do not run any more need not be known. -/
theorem Minded.fewer (minded : Minded host) (same : ∀ property,
    after.app.AnyInstance property ↔ host.app.AnyInstance property)
    (apart : ∀ child, after.app.current.process = some child →
      after.app.other.process ≠ some child)
    (fewer : Fewer host.machine after.machine) : Minded after where
  known child runs := (same _).mpr (minded.known child (fewer.children.subset runs))
  apart := apart
  spawned child known := fewer.spawned ▸ minded.spawned child ((same _).mp known)
  nodup := minded.nodup.sublist fewer.children

theorem Minded.length_le (minded : Minded host) : host.machine.children.length ≤ 2 := by
  have inside : host.machine.children ⊆
      host.app.instance1.process.toList ++ host.app.instance2.process.toList := by
    intro child runs
    simpa [RunningApp.AnyInstance] using minded.known child runs
  calc host.machine.children.length
      ≤ (host.app.instance1.process.toList ++ host.app.instance2.process.toList).length :=
        (minded.nodup.subperm inside).length_le
    _ ≤ 2 := by
        cases host.app.instance1.process <;> cases host.app.instance2.process <;> simp

end Minded

/-! ## What sections keep -/

section Sections

variable {child : Child} {process : Option Child}

theorem mem_stopped {stopAnswers : StopAnswers} :
    child ∈ (machine.stopped slot stopAnswers).children ↔
      child ∈ machine.children ∧ (slot.docker = false → slot.process ≠ some child) := by
  rw [children_stopped]
  cases slot.docker <;> simp

/-- What runs once an application is started next to the other instance: the application, the
other instance, and a process that is taken for a container. -/
theorem Minded.mem_started (minded : Minded host) :
    child ∈ ((host.machine.stopped host.app.current answers.oldStopped).started appInfo optionArgs
        answers).children ↔
      startedChild host.machine appInfo = some child ∨ child ∈ host.machine.children ∧
        (host.app.other.process = some child ∨
          host.app.current.docker ∧ host.app.current.process = some child) := by
  rw [children_started, List.mem_append, Option.mem_toList, startedChild_stopped, mem_stopped]
  refine or_congr_right (and_congr_right fun runs => ?_)
  rcases RunningApp.anyInstance_iff.mp (minded.known child runs) with isCurrent | isOther
  · have notOther := minded.apart child isCurrent
    cases host.app.current.docker <;> simp [isCurrent, notOther]
  · have notCurrent : host.app.current.process ≠ some child :=
      fun isCurrent => minded.apart child isCurrent isOther
    simp [isOther, notCurrent]

theorem replaced_processes (app : RunningApp) (process : Option Child) :
    (app.replaced process).current.process =
        (if app.other.docker then app.other.process else none) ∧
      (app.replaced process).other.process =
        (if app.other.docker then app.current.process else process) := by
  rw [RunningApp.replaced_current, RunningApp.replaced_other]
  constructor <;> split <;> rfl

/-- The application that was started next to the other one does not have its number. -/
theorem Minded.startedChild_ne (minded : Minded host) {slot : Slot}
    (isSlot : slot = host.app.current ∨ slot = host.app.other)
    (isChild : startedChild host.machine appInfo = some child) : slot.process ≠ some child := by
  obtain ⟨_, rfl⟩ := startedChild_eq_some.mp isChild
  exact minded.spawned_ne isSlot

/-- All children are known after an application is started next to the other one if and only
if no process is taken for a container. -/
theorem Minded.known_filled (minded : Minded host)
    (isApp : after.app = host.app.filled appInfo (startedChild host.machine appInfo))
    (isMachine : after.machine = (host.machine.stopped host.app.current
      answers.oldStopped).started appInfo optionArgs answers) :
    (∀ child ∈ after.machine.children, after.app.AnyInstance (·.process = some child)) ↔
      ¬Disguised host := by
  simp only [isApp, isMachine, RunningApp.anyInstance_iff, RunningApp.filled_current,
    RunningApp.filled_other, minded.mem_started, filledSlot]
  constructor
  · rintro known ⟨isDocker, child, isCurrent, runs⟩
    rcases known child (.inr ⟨runs, .inr ⟨isDocker, isCurrent⟩⟩) with isNew | isOther
    · exact minded.startedChild_ne (.inl rfl) isNew isCurrent
    · exact minded.apart child isCurrent isOther
  · rintro notDisguised child (isNew | ⟨runs, isOther | ⟨isDocker, isCurrent⟩⟩)
    · exact .inl isNew
    · exact .inr isOther
    · exact absurd ⟨isDocker, child, isCurrent, runs⟩ notDisguised

/-- All children are known after the other instance, a container, is replaced if and only if
the application is one too. -/
theorem Minded.known_replaced_container (minded : Minded host) (isDocker : host.app.other.docker)
    (isApp : after.app = host.app.replaced (startedChild host.machine appInfo))
    (isMachine : after.machine = ((host.machine.stopped host.app.current
      answers.oldStopped).started appInfo optionArgs answers).stopped host.app.other
        answers.otherStopped) :
    (∀ child ∈ after.machine.children, after.app.AnyInstance (·.process = some child)) ↔
      ¬appInfo.isDockerImage = false := by
  simp only [isApp, isMachine, RunningApp.anyInstance_iff, replaced_processes, isDocker, if_true,
    mem_stopped, minded.mem_started, reduceCtorEq, false_imp_iff, and_true]
  constructor
  · intro known native
    rcases known host.machine.spawned (.inl (startedChild_native native)) with isOther | isCurrent
    · exact minded.spawned_ne (.inr rfl) isOther
    · exact minded.spawned_ne (.inl rfl) isCurrent
  · rintro notNative child (isNew | ⟨_, isOther | ⟨_, isCurrent⟩⟩)
    · exact absurd (startedChild_eq_some.mp isNew).1 notNative
    · exact .inl isOther
    · exact .inr isCurrent

/-- All children are known after the other instance, a process, is replaced if and only if no
process is taken for a container. -/
theorem Minded.known_replaced_process (minded : Minded host)
    (native : host.app.other.docker = false)
    (isApp : after.app = host.app.replaced (startedChild host.machine appInfo))
    (isMachine : after.machine = ((host.machine.stopped host.app.current
      answers.oldStopped).started appInfo optionArgs answers).stopped host.app.other
        answers.otherStopped) :
    (∀ child ∈ after.machine.children, after.app.AnyInstance (·.process = some child)) ↔
      ¬Disguised host := by
  simp only [isApp, isMachine, RunningApp.anyInstance_iff, replaced_processes, native, if_false,
    mem_stopped, minded.mem_started, Bool.false_eq_true, reduceCtorEq, false_or, forall_const]
  constructor
  · rintro known ⟨isDocker, child, isCurrent, runs⟩
    have isNew := known child
      ⟨.inr ⟨runs, .inr ⟨isDocker, isCurrent⟩⟩, minded.apart child isCurrent⟩
    exact minded.startedChild_ne (.inl rfl) isNew isCurrent
  · rintro notDisguised child ⟨isNew | ⟨runs, isOther | ⟨isDocker, isCurrent⟩⟩, notOther⟩
    · exact isNew
    · exact absurd isOther notOther
    · exact absurd ⟨isDocker, child, isCurrent, runs⟩ notDisguised

/-- All children are known after the other instance is not stopped if and only if the
application that was to take its place is a container. -/
theorem Minded.known_failed (minded : Minded host) (sameApp : after.app = host.app)
    (halted : after.machine = ((host.machine.stopped host.app.current
      answers.oldStopped).started appInfo optionArgs answers).halted host.app.other
        answers.otherStopped) :
    (∀ child ∈ after.machine.children, after.app.AnyInstance (·.process = some child)) ↔
      ¬appInfo.isDockerImage = false := by
  simp only [sameApp, halted]
  constructor
  · intro known native
    have runs : host.machine.spawned ∈ (((host.machine.stopped host.app.current
        answers.oldStopped).started appInfo optionArgs answers).halted host.app.other
          answers.otherStopped).children := by
      have started : host.machine.spawned ∈ ((host.machine.stopped host.app.current
          answers.oldStopped).started appInfo optionArgs answers).children :=
        minded.mem_started.mpr (.inl (startedChild_native native))
      unfold Machine.halted
      split
      · exact mem_stopped.mpr ⟨started, fun _ => minded.spawned_ne (.inr rfl)⟩
      · exact started
    rcases RunningApp.anyInstance_iff.mp (known _ runs) with isCurrent | isOther
    · exact minded.spawned_ne (.inl rfl) isCurrent
    · exact minded.spawned_ne (.inr rfl) isOther
  · intro notNative child runs
    rcases minded.mem_started.mp (fewer_halted.children.subset runs) with isNew | ⟨left, _⟩
    · exact absurd (startedChild_eq_some.mp isNew).1 notNative
    · exact minded.known child left

/-- All children are known after a section if and only if it drops none. -/
theorem Minded.known_iff (minded : Minded host)
    (ran : Ran host dataPath appInfo runArgs startType answers after) :
    (∀ child ∈ after.machine.children, after.app.AnyInstance (·.process = some child)) ↔
      ¬Drops host dataPath appInfo runArgs startType answers := by
  cases ran with
  | stops notFills sameApp fewer =>
      refine iff_of_true (fun child runs => ?_) fun drops => notFills drops.1
      rw [sameApp]
      exact minded.known child (fewer.children.subset runs)
  | fails fills isRun notStoppable sameApp optionArgs halted =>
      rw [minded.known_failed sameApp halted, Drops, if_pos ⟨isRun, .inr notStoppable⟩]
      simp [fills]
  | passes passes isApp optionArgs isMachine =>
      cases startType with
      | sync =>
          rw [minded.known_filled isApp isMachine, Drops]
          simp [passes.1]
      | run =>
          have stoppable := passes.2 rfl
          cases isDocker : host.app.other.docker with
          | true =>
              rw [minded.known_replaced_container isDocker isApp isMachine, Drops,
                if_pos ⟨rfl, .inl isDocker⟩]
              simp [passes.1]
          | false =>
              rw [minded.known_replaced_process isDocker isApp isMachine, Drops,
                if_neg (by simp [isDocker, stoppable])]
              simp [passes.1]

/-- The machine grows by the application that is started at most. -/
structure Grew (appInfo : DownloadInfo) (before after : Machine) : Prop where
  children : after.children.Sublist ((startedChild before appInfo).toList ++ before.children)
  spawned : before.spawned ≤ after.spawned

theorem Fewer.grew {before after : Machine} (fewer : Fewer before after) :
    Grew appInfo before after :=
  ⟨fewer.children.trans (List.sublist_append_right _ _), fewer.spawned.ge⟩

theorem Grew.fewer {before middle after : Machine} (grew : Grew appInfo before middle)
    (fewer : Fewer middle after) : Grew appInfo before after :=
  ⟨fewer.children.trans grew.children, grew.spawned.trans fewer.spawned.ge⟩

theorem grew_started {stopAnswers : StopAnswers} :
    Grew appInfo machine
      ((machine.stopped slot stopAnswers).started appInfo optionArgs answers) := by
  constructor
  · rw [children_started, startedChild_stopped]
    exact fewer_stopped.children.append_left _
  · rw [← Machine.stopped_spawned machine slot stopAnswers]
    exact spawned_le_started

theorem Ran.grew (ran : Ran host dataPath appInfo runArgs startType answers after) :
    Grew appInfo host.machine after.machine := by
  cases ran with
  | stops notFills sameApp fewer => exact fewer.grew
  | fails fills isRun notStoppable sameApp optionArgs halted =>
      rw [halted]
      exact grew_started.fewer fewer_halted
  | passes passes isApp optionArgs isMachine =>
      rw [isMachine]
      cases startType with
      | sync => exact grew_started
      | run => exact grew_started.fewer fewer_stopped

theorem Ran.processes (ran : Ran host dataPath appInfo runArgs startType answers after) :
    after.app = host.app ∨
      (after.app.current.process = startedChild host.machine appInfo ∧
        after.app.other.process = host.app.other.process ∨
      after.app.current.process = none ∧
        after.app.other.process = startedChild host.machine appInfo ∨
      after.app.current.process = host.app.other.process ∧
        after.app.other.process = host.app.current.process) ∧
      ∀ child, startedChild host.machine appInfo = some child → child < after.machine.spawned := by
  cases ran with
  | stops notFills sameApp fewer => exact .inl sameApp
  | fails fills isRun notStoppable sameApp optionArgs halted => exact .inl sameApp
  | passes passes isApp optionArgs isMachine =>
      right
      have isLess : ∀ child, startedChild host.machine appInfo = some child →
          child < after.machine.spawned := by
        intro child isNew
        have less : child < ((host.machine.stopped host.app.current answers.oldStopped).started
            appInfo optionArgs answers).spawned :=
          startedChild_lt_spawned ((startedChild_stopped _ _ _).trans isNew)
        rw [isMachine]
        cases startType with
        | sync => exact less
        | run => simpa [RunningApp.machineRan] using less
      refine ⟨?_, isLess⟩
      rw [isApp]
      cases startType with
      | sync => exact .inl (by simp [RunningApp.ran, filledSlot])
      | run =>
          have processes := replaced_processes host.app (startedChild host.machine appInfo)
          cases isDocker : host.app.other.docker with
          | true =>
              rw [isDocker, if_pos rfl, if_pos rfl] at processes
              exact .inr (.inr processes)
          | false =>
              rw [isDocker, if_neg Bool.false_ne_true, if_neg Bool.false_ne_true] at processes
              exact .inr (.inl processes)

theorem Minded.ran (minded : Minded host)
    (ran : Ran host dataPath appInfo runArgs startType answers after)
    (kept : ¬Drops host dataPath appInfo runArgs startType answers) : Minded after := by
  have grew := ran.grew
  refine ⟨(minded.known_iff ran).mpr kept, ?_, ?_, ?_⟩
  · rcases ran.processes with same | ⟨⟨isNew, isOther⟩ | ⟨isNone, _⟩ | ⟨isOther, isCurrent⟩, _⟩
    · rw [same]
      exact minded.apart
    · rw [isNew, isOther]
      exact fun child isChild => minded.startedChild_ne (.inr rfl) isChild
    · simp [isNone]
    · rw [isOther, isCurrent]
      exact fun child wasOther wasCurrent => minded.apart child wasCurrent wasOther
  · intro child known
    rw [RunningApp.anyInstance_iff] at known
    have before : host.app.current.process = some child ∨ host.app.other.process = some child →
        child < after.machine.spawned := fun wasKnown =>
      (minded.spawned child (RunningApp.anyInstance_iff.mpr wasKnown)).trans_le grew.spawned
    rcases ran.processes with
      same | ⟨⟨isNew, isOther⟩ | ⟨isNone, isNew⟩ | ⟨isOther, isCurrent⟩, isLess⟩
    · rw [same] at known
      exact before known
    · rw [isNew, isOther] at known
      exact known.elim (isLess child) fun wasOther => before (.inr wasOther)
    · rw [isNone, isNew] at known
      exact known.elim (by rintro ⟨⟩) (isLess child)
    · rw [isOther, isCurrent] at known
      exact before known.symm
  · refine List.Nodup.sublist grew.children ?_
    cases isNew : startedChild host.machine appInfo with
    | none => exact minded.nodup
    | some child =>
        obtain ⟨_, rfl⟩ := startedChild_eq_some.mp isNew
        exact List.nodup_cons.mpr ⟨minded.spawned_not_mem, minded.nodup⟩

end Sections

/-! ## Over all orders of steps -/

/-- A section of `process_run_task` that is about to be taken. -/
structure RunSection where
  startType : StartType
  appInfo : DownloadInfo
  runArgs : Option Bytes
  answers : RunAnswers

/-- The section of `process_run_task` that a step is, if it is one. -/
def Worker.runSection (worker : Worker) : Action → Option RunSection
  | .sync index answers =>
      match worker.downloads[index]? with
      | some ⟨download, .sync⟩ =>
          some { startType := .sync, appInfo := download.appInfo, runArgs := download.syncArgs,
                 answers }
      | _ => none
  | .run index answers => worker.runs[index]?.map fun task =>
      { startType := .run, appInfo := task.appInfo, runArgs := task.runArgs, answers }
  | _ => none

/-- The step leaves a child behind. -/
def Worker.Drops (worker : Worker) (dataPath : Bytes) (action : Action) : Prop :=
  ∃ taken ∈ worker.runSection action, Node.Drops worker.host dataPath taken.appInfo taken.runArgs
    taken.startType taken.answers

/-- Neither the machine nor the instances change. -/
structure Quiet (before after : Host) : Prop where
  machine : after.machine = before.machine
  slot : ∀ index, after.app.slot index = before.app.slot index
  curIns : after.app.curIns = before.app.curIns

theorem Quiet.of_app {before after : Host} (machine : after.machine = before.machine)
    (app : after.app = before.app) : Quiet before after :=
  ⟨machine, by simp [app], by rw [app]⟩

theorem Quiet.of_untouched {before after : Host} (untouched : Untouched before after) :
    Quiet before after :=
  .of_app untouched.machine untouched.app

theorem Minded.quiet (minded : Minded host) (quiet : Quiet host after) : Minded after := by
  have current : after.app.current = host.app.current := by
    rw [RunningApp.current, quiet.curIns, quiet.slot]
    rfl
  have other : after.app.other = host.app.other := by
    rw [RunningApp.other, quiet.curIns, quiet.slot]
    rfl
  refine minded.fewer (fun property => ?_) ?_ (.of_eq quiet.machine)
  · rw [RunningApp.anyInstance_iff, RunningApp.anyInstance_iff, current, other]
  · rw [current, other]
    exact minded.apart

section Steps

variable {worker later : Worker} {action : Action}

theorem goOn_host (worker : Worker) (index : Nat) (download : Download)
    (phase : Option DownloadPhase) : (worker.goOn index download phase).host = worker.host := by
  cases phase <;> rfl

theorem attempt_last {α : Type} (body : NodeM α) (host : Host) :
    (attempt body host).2 = (body host).2 := by
  have ends : body.Ends host (fun _ _ => True) fun _ _ => True :=
    .of_forall (fun _ _ => trivial) fun _ _ => trivial
  have last : (attempt body).Ends host (fun _ after => after = (body host).2)
      fun _ after => after = (body host).2 := by
    refine ends_attempt.mpr (ends.computed.mono (fun _ _ computed => computed.2) ?_)
    intro stop after computed
    cases stop <;> exact computed.2
  exact last.last

/-- A start next to the other instance is a section of `process_run_task`. -/
theorem sync_host (worker : Worker) (index : Nat) (download : Download) (answers : RunAnswers) :
    (worker.sync dataPath index download answers).host =
      (processRunTask dataPath download.appInfo download.syncArgs download.optionArgs .sync answers
        worker.host).2 := by
  rw [← attempt_last]
  change _ = (syncDownloaded dataPath download.appInfo download.syncArgs download.optionArgs
    answers worker.host).2
  unfold Worker.sync
  split
  all_goals
    rename_i ended
    rw [goOn_host, note_host, ended]

theorem prepare_host (dataPath : Bytes) (worker : Worker) (index : Nat) (download : Download)
    (answers : DownloadAnswers) :
    Untouched worker.host (worker.prepare dataPath index download answers).host := by
  have untouched : Untouched worker.host
      (prepareDownload dataPath download.appInfo answers worker.host).2 :=
    Ends.last (ends_prepareDownload.mono (fun _ _ ends => ends.2) fun _ _ ends => ends.2)
  unfold Worker.prepare
  split
  all_goals
    rename_i ended
    rw [goOn_host]
    rwa [ended] at untouched

/-- Every step is a section of `process_run_task`, or starts and stops nothing. -/
theorem ran_or_quiet (taken : workerStep dataPath worker action = some later) :
    (∀ starts ∈ worker.runSection action, Ran worker.host dataPath starts.appInfo starts.runArgs
      starts.startType starts.answers later.host) ∧
    (worker.runSection action = none → Quiet worker.host later.host) := by
  cases action with
  | sync index answers =>
      simp only [workerStep] at taken
      split at taken
      · rename_i found
        cases taken
        simp only [Worker.runSection, found, Option.mem_some_iff, reduceCtorEq, false_imp_iff,
          and_true]
        rintro _ rfl
        rw [sync_host]
        exact ran_processRunTask
      · cases taken
  | run index answers =>
      obtain ⟨task, found, rfl⟩ := Option.map_eq_some_iff.mp taken
      simp only [Worker.runSection, found, Option.map_some, Option.mem_some_iff, reduceCtorEq,
        false_imp_iff, and_true]
      rintro _ rfl
      exact ran_processRunTask
  | load storage shouldLoad =>
      refine ⟨by rintro _ ⟨⟩, fun _ => ?_⟩
      cases transition_of_step taken with
      | waits | rests => exact .of_app rfl rfl
      | loads => exact ⟨rfl, by rintro (_ | _) <;> rfl, rfl⟩
  | launch storage shouldRun =>
      refine ⟨by rintro _ ⟨⟩, fun _ => ?_⟩
      cases transition_of_step taken with
      | rests => exact .of_app rfl rfl
      | launches => exact ⟨rfl, by rintro (_ | _) <;> rfl, rfl⟩
  | abandon =>
      refine ⟨by rintro _ ⟨⟩, fun _ => ?_⟩
      cases transition_of_step taken with
      | rests => exact .of_app rfl rfl
  | prepare index answers =>
      refine ⟨by rintro _ ⟨⟩, fun _ => ?_⟩
      simp only [workerStep] at taken
      split at taken
      · cases taken
        exact .of_untouched (prepare_host ..)
      · cases taken
  | settle index =>
      refine ⟨by rintro _ ⟨⟩, fun _ => ?_⟩
      cases transition_of_step taken with
      | rests => exact .of_app rfl rfl
      | settles index download startFlag found =>
          rw [Worker.settle, goOn_host]
          cases startFlag <;> exact ⟨rfl, by rintro (_ | _) <;> rfl, rfl⟩

/-- A step that leaves no child behind keeps them known. -/
theorem Minded.step (minded : Minded worker.host)
    (taken : workerStep dataPath worker action = some later)
    (kept : ¬worker.Drops dataPath action) : Minded later.host := by
  obtain ⟨ran, quiet⟩ := ran_or_quiet taken
  cases isSection : worker.runSection action with
  | none => exact minded.quiet (quiet isSection)
  | some starts =>
      exact minded.ran (ran starts isSection) fun drops => kept ⟨starts, isSection, drops⟩

theorem Worker.Drops.taken (drops : worker.Drops dataPath action) :
    ∃ later, workerStep dataPath worker action = some later := by
  obtain ⟨starts, isSection, _⟩ := drops
  cases action with
  | sync index answers =>
      simp only [Worker.runSection] at isSection
      split at isSection
      · rename_i found
        exact ⟨_, by simp only [workerStep, found]; rfl⟩
      · cases isSection
  | run index answers =>
      obtain ⟨task, found, _⟩ := Option.map_eq_some_iff.mp isSection
      exact ⟨_, by simp only [workerStep, found, Option.map_some]; rfl⟩
  | load | launch | abandon | prepare | settle => cases isSection

end Steps

/-- Every child that was not killed is the process of an instance, and there are at most two. -/
structure Attended (worker : Worker) : Prop where
  known : ∀ child ∈ worker.host.machine.children,
    worker.host.app.AnyInstance (·.process = some child)
  atMost : worker.host.machine.children.length ≤ 2

/-- Over every run of the node from a machine without children, whatever calls fail and in
whatever order the tasks take their steps: at most two children run, and the instances refer to
them, if and only if no native application is started in the place of a container or of a
process that cannot be stopped, and no process that is taken for a container is forgotten. -/
theorem attended_throughout_iff (dataPath : Bytes) (spawned : Nat) (containers : List String)
    (actions : List Action) :
    Throughout (workerStep dataPath) Attended
        (.start { spawned, children := [], containers }) actions ↔
      Admitted (workerStep dataPath) (fun worker action => ¬worker.Drops dataPath action)
        (.start { spawned, children := [], containers }) actions := by
  have initial : Minded (Worker.start { spawned, children := [], containers }).host :=
    ⟨by rintro _ ⟨⟩, by rintro _ ⟨⟩, by rintro _ (⟨⟨⟩⟩ | ⟨⟨⟩⟩), .nil⟩
  have within : ∀ worker : Worker, Minded worker.host → Attended worker :=
    fun worker minded => ⟨minded.known, minded.length_le⟩
  refine throughout_iff_admitted within ?_ ?_ initial actions
  · exact fun worker action later minded kept taken => minded.step taken kept
  · intro worker action minded attended drops
    obtain ⟨later, taken⟩ := drops.taken
    obtain ⟨starts, isSection, dropped⟩ := drops
    have ran := (ran_or_quiet taken).1 starts isSection
    exact (minded.known_iff ran).mp (attended later taken).known dropped

end Popsicle.Node
