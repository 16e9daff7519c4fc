import Popsicle.Foundation.Run
import Popsicle.Node.Outcomes

/-!
# Instances

An application is started twice: next to the one that runs, while it catches up, and then
in its place.  A process or a container that no instance refers to is never stopped again.
-/

namespace Popsicle.Node

open Foundation Exec

variable {host : Host} {app : RunningApp} {machine : Machine} {dataPath : Bytes}
  {appInfo : DownloadInfo} {optionArgs : Option Bytes} {process : Option Child}

/-! ## Lifecycles -/

/-- A run of `process_run_task`. -/
structure Launch where
  startType : StartType
  appInfo : DownloadInfo
  runArgs : Option Bytes
  optionArgs : Option Bytes

/-- A launch, where all calls succeed. -/
def launch (dataPath : Bytes) (host : Host) (launch : Launch) : Host :=
  (processRunTask dataPath launch.appInfo launch.runArgs launch.optionArgs launch.startType
    .success host).2

def launchStep (dataPath : Bytes) (host : Host) (action : Launch) : Option Host :=
  some (launch dataPath host action)

/-- What an application is started with, next to the other one and in its place. -/
structure Lifecycle where
  appInfo : DownloadInfo
  syncArgs : Option Bytes
  syncOptions : Option Bytes
  runArgs : Option Bytes
  runOptions : Option Bytes

def Lifecycle.sync (lifecycle : Lifecycle) : Launch where
  startType := .sync
  appInfo := lifecycle.appInfo
  runArgs := lifecycle.syncArgs
  optionArgs := lifecycle.syncOptions

def Lifecycle.run (lifecycle : Lifecycle) : Launch where
  startType := .run
  appInfo := lifecycle.appInfo
  runArgs := lifecycle.runArgs
  optionArgs := lifecycle.runOptions

/-- The launches of one application after the other. -/
def launches (lifecycles : List Lifecycle) : List Launch :=
  lifecycles.flatMap fun lifecycle => [lifecycle.sync, lifecycle.run]

/-- Nothing runs on the machine. -/
def fresh : Host where
  app := .default
  machine := { spawned := 0, children := [], containers := [] }
  calls := []

/-! ## References -/

/-- The instance is known to be the container with the given name. -/
def Slot.Names (slot : Slot) (container : String) : Prop :=
  slot.docker ∧ ∃ name ∈ slot.dockerName, fromUtf8 name = some container

/-- Some instance satisfies a property. -/
def RunningApp.AnyInstance (app : RunningApp) (property : Slot → Prop) : Prop :=
  property app.instance1 ∨ property app.instance2

/-- Every child that was not killed and every container that was not removed is known. -/
structure Tracked (host : Host) : Prop where
  children : ∀ child ∈ host.machine.children, host.app.AnyInstance (·.process = some child)
  containers : ∀ container ∈ host.machine.containers, host.app.AnyInstance (·.Names container)

theorem RunningApp.anyInstance_iff {property : Slot → Prop} :
    app.AnyInstance property ↔ property app.current ∨ property app.other := by
  unfold RunningApp.AnyInstance current other
  cases app.curIns with
  | instance1 => rfl
  | instance2 => exact or_comm

/-- What is known, and what makes the next stop of the current instance complete. -/
structure Orderly (host : Host) : Prop where
  tracked : Tracked host
  idle : host.app.current.docker → host.app.current.process = none
  spawned : ∀ child, host.app.AnyInstance (·.process = some child) → child < host.machine.spawned
  currentReadable : ReadableArgs host.app.current.dockerName
  otherReadable : ReadableArgs host.app.other.dockerName

/-- A launch whose process or container will be known.  A native application is not to
take the place of a docker container, and a container is to have the name of the current
instance, unless it is removed with the other one. -/
def Traceable (dataPath : Bytes) (host : Host) (action : Launch) : Prop :=
  action.startType = .run →
    Passes host.app dataPath action.appInfo action.runArgs .run .success →
      if action.appInfo.isDockerImage then
        ReadableArgs action.optionArgs → ∀ container,
          fromUtf8 action.appInfo.fileName = some container →
            host.app.current.Names container ∨ host.app.other.Names container
      else host.app.other.docker = false

/-! ## What is known after a launch -/

section Members

variable {slot : Slot} {child : Child} {container : String}

theorem mem_children_stopped :
    child ∈ (machine.stopped slot .success).children ↔
      child ∈ machine.children ∧ (slot.docker = false → slot.process ≠ some child) := by
  unfold Machine.stopped
  by_cases isDocker : slot.docker
  · cases slot.dockerName.bind fromUtf8 <;> simp [isDocker, Machine.remove, StopAnswers.success,
      RemovalAnswers.success, CommandAnswer.success]
  · cases slot.process <;> simp [isDocker, Machine.kill, @eq_comm _ child]

theorem mem_containers_stopped :
    container ∈ (machine.stopped slot .success).containers ↔
      container ∈ machine.containers ∧ ¬slot.Names container := by
  unfold Machine.stopped Slot.Names
  by_cases isDocker : slot.docker
  · cases isName : slot.dockerName with
    | none => simp [isDocker]
    | some name =>
        cases isText : fromUtf8 name <;> simp [isDocker, isText, Machine.remove,
          StopAnswers.success, RemovalAnswers.success, CommandAnswer.success,
          @eq_comm _ container]
  · cases slot.process <;> simp [isDocker, Machine.kill]

theorem mem_children_started :
    child ∈ (machine.started appInfo optionArgs .success).children ↔
      child ∈ machine.children ∨ startedChild machine appInfo = some child := by
  unfold Machine.started startedChild
  by_cases isDocker : appInfo.isDockerImage
  · cases fromUtf8 appInfo.fileName with
    | none => simp [isDocker]
    | some name =>
        simp only [isDocker, if_true]
        split <;> simp [Machine.start]
  · simp [isDocker, Machine.spawn, or_comm, @eq_comm _ child]

theorem mem_containers_started :
    container ∈ (machine.started appInfo optionArgs .success).containers ↔
      container ∈ machine.containers ∨ appInfo.isDockerImage ∧ ReadableArgs optionArgs ∧
        fromUtf8 appInfo.fileName = some container := by
  unfold Machine.started
  by_cases isDocker : appInfo.isDockerImage
  · cases fromUtf8 appInfo.fileName with
    | none => simp [isDocker]
    | some name =>
        by_cases isReadable : ReadableArgs optionArgs
        · simp [isDocker, isReadable, Machine.start, RunAnswers.success, ContainerAnswers.success,
            CommandAnswer.success, or_comm, @eq_comm _ container]
        · simp [isDocker, isReadable]
  · simp [isDocker, Machine.spawn]

theorem started_spawned_le :
    machine.spawned ≤ (machine.started appInfo optionArgs .success).spawned := by
  unfold Machine.started
  split
  · split
    · split <;> rfl
    · rfl
  · exact Nat.le_succ _

end Members

/-- What is left on the machine once the current instance is stopped belongs to the other. -/
theorem Orderly.children_stopped (orderly : Orderly host) {child : Child}
    (member : child ∈ (host.machine.stopped host.app.current .success).children) :
    host.app.other.process = some child := by
  obtain ⟨alive, notCurrent⟩ := mem_children_stopped.mp member
  rcases RunningApp.anyInstance_iff.mp (orderly.tracked.children child alive) with known | known
  · cases isDocker : host.app.current.docker with
    | true =>
        rw [orderly.idle isDocker] at known
        cases known
    | false => exact absurd known (notCurrent isDocker)
  · exact known

/-- The containers that are left belong to the other instance too. -/
theorem Orderly.containers_stopped (orderly : Orderly host) {container : String}
    (member : container ∈ (host.machine.stopped host.app.current .success).containers) :
    host.app.other.Names container := by
  obtain ⟨started, notCurrent⟩ := mem_containers_stopped.mp member
  have known := orderly.tracked.containers container started
  exact (RunningApp.anyInstance_iff.mp known).resolve_left notCurrent

/-- Processes that are known are not those that are spawned next. -/
theorem Orderly.spawned_started (orderly : Orderly host) {child : Child}
    (known : host.app.AnyInstance (·.process = some child)) :
    child < ((host.machine.stopped host.app.current .success).started appInfo optionArgs
      .success).spawned := by
  apply (orderly.spawned child known).trans_le
  apply started_spawned_le.trans'
  simp

theorem startedChild_lt {child : Child} (isChild : startedChild machine appInfo = some child) :
    child < (machine.started appInfo optionArgs .success).spawned := by
  unfold startedChild at isChild
  split at isChild
  · cases isChild
  · rename_i notDocker
    cases isChild
    simp [Machine.started, notDocker, Machine.spawn]

/-- Starting an application next to the other one keeps everything known. -/
theorem Orderly.filled (orderly : Orderly host) {after : Host}
    (named : appInfo.isDockerImage → Readable appInfo.fileName)
    (isApp : after.app = host.app.filled appInfo (startedChild host.machine appInfo))
    (isMachine : after.machine =
      (host.machine.stopped host.app.current .success).started appInfo optionArgs .success) :
    Orderly after := by
  constructor
  · constructor
    · intro child alive
      rw [isMachine, mem_children_started, startedChild_stopped] at alive
      rw [isApp, RunningApp.anyInstance_iff, RunningApp.filled_current, RunningApp.filled_other]
      rcases alive with left | new
      · exact .inr (orderly.children_stopped left)
      · exact .inl new
    · intro container alive
      rw [isMachine, mem_containers_started] at alive
      rw [isApp, RunningApp.anyInstance_iff, RunningApp.filled_current, RunningApp.filled_other]
      rcases alive with left | ⟨isDocker, _, isName⟩
      · exact .inr (orderly.containers_stopped left)
      · exact .inl ⟨isDocker, appInfo.fileName, by simp [filledSlot, isDocker], isName⟩
  · intro isDocker
    rw [isApp, RunningApp.filled_current] at isDocker ⊢
    have noChild : startedChild host.machine appInfo = none := if_pos isDocker
    simpa [filledSlot] using noChild
  · intro child known
    rw [isApp, RunningApp.anyInstance_iff, RunningApp.filled_current,
      RunningApp.filled_other] at known
    rw [isMachine]
    rcases known with new | kept
    · exact startedChild_lt ((startedChild_stopped _ _ _).trans new)
    · exact orderly.spawned_started (RunningApp.anyInstance_iff.mpr (.inr kept))
  · rw [isApp, RunningApp.filled_current]
    intro name isName
    unfold filledSlot at isName
    split at isName
    · cases isName
      exact named (by assumption)
    · cases isName
  · rw [isApp, RunningApp.filled_other]
    exact orderly.otherReadable

theorem replaced_current_docker : (app.replaced process).current.docker = false := by
  rw [RunningApp.replaced_current]
  split
  · rfl
  · exact Bool.eq_false_iff.mpr (by assumption)

theorem names_replaced_other {container : String} :
    (app.replaced process).other.Names container ↔ app.current.Names container := by
  rw [RunningApp.replaced_other]
  split <;> rfl

/-- The machine once an application took the place of the other one. -/
def machineReplaced (host : Host) (appInfo : DownloadInfo) (optionArgs : Option Bytes) :
    Machine :=
  ((host.machine.stopped host.app.current .success).started appInfo optionArgs .success).stopped
    host.app.other .success

/-- What runs then is the new application or, next to a container, a process that is not
stopped. -/
theorem Orderly.children_replaced (orderly : Orderly host) {child : Child}
    (alive : child ∈ (machineReplaced host appInfo optionArgs).children) :
    host.app.other.docker ∧ host.app.other.process = some child ∨
      startedChild host.machine appInfo = some child := by
  rw [machineReplaced, mem_children_stopped, mem_children_started,
    startedChild_stopped] at alive
  obtain ⟨left | new, notOther⟩ := alive
  · have isOther := orderly.children_stopped left
    refine .inl ⟨?_, isOther⟩
    by_contra notDocker
    exact notOther (Bool.eq_false_iff.mpr notDocker) isOther
  · exact .inr new

theorem Orderly.containers_replaced (orderly : Orderly host) {container : String} :
    container ∈ (machineReplaced host appInfo optionArgs).containers ↔
      (appInfo.isDockerImage ∧ ReadableArgs optionArgs ∧
        fromUtf8 appInfo.fileName = some container) ∧ ¬host.app.other.Names container := by
  rw [machineReplaced, mem_containers_stopped, mem_containers_started]
  constructor
  · rintro ⟨started, notOther⟩
    refine ⟨started.resolve_left fun left => ?_, notOther⟩
    exact notOther (orderly.containers_stopped left)
  · rintro ⟨started, notOther⟩
    exact ⟨.inr started, notOther⟩

/-- A container that takes the place of the other instance is known by the name of the
current one. -/
theorem Orderly.tracked_replaced_docker (orderly : Orderly host) {after : Host}
    (isDocker : appInfo.isDockerImage)
    (isApp : after.app = host.app.replaced (startedChild host.machine appInfo))
    (isMachine : after.machine = machineReplaced host appInfo optionArgs) :
    Tracked after ↔
      (ReadableArgs optionArgs → ∀ container, fromUtf8 appInfo.fileName = some container →
        host.app.current.Names container ∨ host.app.other.Names container) := by
  have notNamed : ∀ container, ¬after.app.current.Names container := by
    rintro container ⟨named, _⟩
    rw [isApp, replaced_current_docker] at named
    cases named
  have named : ∀ container, after.app.other.Names container ↔ host.app.current.Names container := by
    intro container
    rw [isApp, names_replaced_other]
  constructor
  · intro tracked readable container isName
    by_cases otherNames : host.app.other.Names container
    · exact .inr otherNames
    · have alive : container ∈ after.machine.containers := by
        rw [isMachine, orderly.containers_replaced]
        exact ⟨⟨isDocker, readable, isName⟩, otherNames⟩
      have known := RunningApp.anyInstance_iff.mp (tracked.containers container alive)
      exact .inl ((named container).mp (known.resolve_left (notNamed container)))
  · intro traced
    constructor
    · intro child alive
      rw [isMachine] at alive
      rcases orderly.children_replaced alive with ⟨otherDocker, isOther⟩ | new
      · apply RunningApp.anyInstance_iff.mpr
        rw [isApp, RunningApp.replaced_current, if_pos otherDocker]
        exact .inl isOther
      · rw [startedChild, if_pos isDocker] at new
        cases new
    · intro container alive
      rw [isMachine, orderly.containers_replaced] at alive
      obtain ⟨⟨_, readable, isName⟩, notOther⟩ := alive
      have isCurrent := (traced readable container isName).resolve_right notOther
      exact RunningApp.anyInstance_iff.mpr (.inr ((named container).mpr isCurrent))

/-- A process that takes the place of the other instance is kept unless that is a
container. -/
theorem Orderly.tracked_replaced_native (orderly : Orderly host) {after : Host}
    (native : appInfo.isDockerImage = false)
    (isApp : after.app = host.app.replaced (startedChild host.machine appInfo))
    (isMachine : after.machine = machineReplaced host appInfo optionArgs) :
    Tracked after ↔ host.app.other.docker = false := by
  have isChild : startedChild host.machine appInfo = some host.machine.spawned := by
    simp [startedChild, native]
  constructor
  · intro tracked
    by_contra notNative
    have otherDocker : host.app.other.docker = true := Bool.not_eq_false _ ▸ notNative
    have alive : host.machine.spawned ∈ after.machine.children := by
      rw [isMachine, machineReplaced, mem_children_stopped, mem_children_started,
        startedChild_stopped, isChild]
      exact ⟨.inr rfl, fun native => absurd native notNative⟩
    have known := RunningApp.anyInstance_iff.mp (tracked.children _ alive)
    rw [isApp, RunningApp.replaced_current, RunningApp.replaced_other, if_pos otherDocker,
      if_pos otherDocker] at known
    have old := orderly.spawned _ (RunningApp.anyInstance_iff.mpr known.symm)
    exact lt_irrefl _ old
  · intro otherNative
    have notDocker : ¬host.app.other.docker = true := Bool.eq_false_iff.mp otherNative
    constructor
    · intro child alive
      rw [isMachine] at alive
      have new := (orderly.children_replaced alive).resolve_left fun other => notDocker other.1
      apply RunningApp.anyInstance_iff.mpr
      rw [isApp, RunningApp.replaced_other, if_neg notDocker]
      exact .inr new
    · intro container alive
      rw [isMachine, orderly.containers_replaced] at alive
      rw [native] at alive
      cases alive.1.1

/-- The rest of what is kept once an application took the place of the other one. -/
theorem Orderly.replaced (orderly : Orderly host) {after : Host} (tracked : Tracked after)
    (isApp : after.app = host.app.replaced (startedChild host.machine appInfo))
    (isMachine : after.machine = machineReplaced host appInfo optionArgs) : Orderly after := by
  constructor
  · exact tracked
  · intro isDocker
    rw [isApp, replaced_current_docker] at isDocker
    cases isDocker
  · intro child known
    rw [isMachine, machineReplaced, Machine.stopped_spawned]
    have isOld : host.app.current.process = some child ∨ host.app.other.process = some child →
        child < ((host.machine.stopped host.app.current .success).started appInfo optionArgs
          .success).spawned :=
      fun isOld => orderly.spawned_started (RunningApp.anyInstance_iff.mpr isOld)
    rw [isApp, RunningApp.anyInstance_iff, RunningApp.replaced_current,
      RunningApp.replaced_other] at known
    split at known
    · exact isOld known.symm
    · rcases known with nothing | new
      · cases nothing
      · exact startedChild_lt ((startedChild_stopped _ _ _).trans new)
  · rw [isApp, RunningApp.replaced_current]
    split
    · intro name isName
      cases isName
    · exact orderly.otherReadable
  · rw [isApp, RunningApp.replaced_other]
    split <;> exact orderly.currentReadable

/-- Stopping the current instance, or nothing at all, keeps everything known. -/
theorem Orderly.stopped (orderly : Orderly host) {after : Host} (isApp : after.app = host.app)
    (isMachine : after.machine = host.machine ∨
      after.machine = host.machine.stopped host.app.current .success) : Orderly after := by
  have children : ∀ child ∈ after.machine.children, child ∈ host.machine.children := by
    rcases isMachine with same | stopped
    · rw [same]
      exact fun _ => id
    · rw [stopped]
      exact fun _ alive => (mem_children_stopped.mp alive).1
  have containers : ∀ container ∈ after.machine.containers,
      container ∈ host.machine.containers := by
    rcases isMachine with same | stopped
    · rw [same]
      exact fun _ => id
    · rw [stopped]
      exact fun _ alive => (mem_containers_stopped.mp alive).1
  have spawned : after.machine.spawned = host.machine.spawned := by
    rcases isMachine with same | stopped
    · rw [same]
    · rw [stopped, Machine.stopped_spawned]
  constructor
  · constructor
    · intro child alive
      rw [isApp]
      exact orderly.tracked.children child (children child alive)
    · intro container alive
      rw [isApp]
      exact orderly.tracked.containers container (containers container alive)
  · rw [isApp]
    exact orderly.idle
  · rw [isApp, spawned]
    exact orderly.spawned
  · rw [isApp]
    exact orderly.currentReadable
  · rw [isApp]
    exact orderly.otherReadable

/-! ## Runs -/

theorem stoppable_success {slot : Slot} (readable : ReadableArgs slot.dockerName) :
    Stoppable slot .success := by
  unfold Stoppable
  split
  · exact readable
  · exact fun _ => ⟨rfl, rfl⟩

/-- A launch gets through, or it stops the current instance at most. -/
theorem Orderly.launch_cases (orderly : Orderly host) (dataPath : Bytes) (action : Launch) :
    (Passes host.app dataPath action.appInfo action.runArgs action.startType .success ∧
      (launch dataPath host action).app = host.app.ran action.appInfo
        (startedChild host.machine action.appInfo) action.startType ∧
      (launch dataPath host action).machine = host.app.machineRan host.machine action.appInfo
        action.optionArgs .success action.startType) ∨
    (¬Passes host.app dataPath action.appInfo action.runArgs action.startType .success ∧
      Orderly (launch dataPath host action)) := by
  unfold launch
  rcases result : processRunTask dataPath action.appInfo action.runArgs action.optionArgs
    action.startType .success host with ⟨stop | _, after⟩
  · obtain ⟨notPasses, _, sameApp, stopped⟩ := ends_processRunTask.of_error result
    refine .inr ⟨notPasses, orderly.stopped sameApp ?_⟩
    apply stopped
    · exact stoppable_success orderly.currentReadable
    · exact fun _ => stoppable_success orderly.otherReadable
  · exact .inl (ends_processRunTask.of_ok result)

theorem Startable.named {answers : RunAnswers} (startable : Startable dataPath appInfo answers) :
    Readable appInfo.fileName := by
  unfold Startable at startable
  split at startable <;> exact startable.2.1

/-- What a launch leaves is known if and only if the launch is traceable. -/
theorem Orderly.tracked_launch_iff (orderly : Orderly host) (action : Launch) :
    Tracked (launch dataPath host action) ↔ Traceable dataPath host action := by
  rcases orderly.launch_cases dataPath action with
    ⟨passes, isApp, isMachine⟩ | ⟨notPasses, after⟩
  · cases isType : action.startType with
    | sync =>
        rw [isType] at passes isApp isMachine
        refine iff_of_true (orderly.filled ?_ isApp isMachine).tracked ?_
        · exact fun _ => passes.1.startable.named
        · intro isRun
          rw [isType] at isRun
          cases isRun
    | run =>
        rw [isType] at passes isApp isMachine
        constructor
        · intro tracked _ _
          split
          · exact (orderly.tracked_replaced_docker (by assumption) isApp isMachine).mp tracked
          · have native := Bool.eq_false_iff.mpr (by assumption)
            exact (orderly.tracked_replaced_native native isApp isMachine).mp tracked
        · intro traceable
          have traced := traceable isType passes
          split at traced
          · exact (orderly.tracked_replaced_docker (by assumption) isApp isMachine).mpr traced
          · have native := Bool.eq_false_iff.mpr (by assumption)
            exact (orderly.tracked_replaced_native native isApp isMachine).mpr traced
  · refine iff_of_true after.tracked fun isRun passes => ?_
    rw [isRun] at notPasses
    exact absurd passes notPasses

theorem Orderly.launch (orderly : Orderly host) (action : Launch)
    (traceable : Traceable dataPath host action) : Orderly (launch dataPath host action) := by
  have tracked := (orderly.tracked_launch_iff action).mpr traceable
  rcases orderly.launch_cases dataPath action with
    ⟨passes, isApp, isMachine⟩ | ⟨_, after⟩
  · cases isType : action.startType with
    | sync =>
        rw [isType] at passes isApp isMachine
        exact orderly.filled (fun _ => passes.1.startable.named) isApp isMachine
    | run =>
        rw [isType] at passes isApp isMachine
        exact orderly.replaced tracked isApp isMachine
  · exact after

theorem orderly_fresh : Orderly fresh := by
  constructor
  · constructor <;> intro _ member <;> cases member
  · exact fun _ => rfl
  · intro child known
    rcases known with known | known <;> cases known
  · intro name isName
    cases isName
  · intro name isName
    cases isName

/-- Along launches, everything is known throughout if and only if each is traceable. -/
theorem throughout_tracked_iff (actions : List Launch) :
    Throughout (launchStep dataPath) Tracked fresh actions ↔
      Admitted (launchStep dataPath) (Traceable dataPath) fresh actions := by
  have within : ∀ host, Orderly host → Tracked host := fun _ orderly => orderly.tracked
  refine throughout_iff_admitted within ?_ ?_ orderly_fresh actions
  · intro host action after orderly traceable taken
    cases taken
    exact orderly.launch action traceable
  · intro host action orderly known
    exact (orderly.tracked_launch_iff action).mp (known _ rfl)

/-! ## Lifecycles with texts that can be read -/

/-- All texts of a lifecycle can be read, and a container has an image. -/
structure Lifecycle.Legible (dataPath : Bytes) (lifecycle : Lifecycle) : Prop where
  dataPath : Readable dataPath
  fileName : Readable lifecycle.appInfo.fileName
  args : ReadableArgs lifecycle.appInfo.args
  log : ReadableArgs lifecycle.appInfo.log
  image : lifecycle.appInfo.isDockerImage → ∃ image ∈ lifecycle.appInfo.dockerImage, Readable image
  syncArgs : ReadableArgs lifecycle.syncArgs
  runArgs : ReadableArgs lifecycle.runArgs

section Legible

variable {lifecycle : Lifecycle} {docker : Bool}

/-- A launch of a lifecycle with texts that can be read gets through. -/
theorem Lifecycle.Legible.passes (legible : lifecycle.Legible dataPath) (orderly : Orderly host)
    {args : Option Bytes} (readable : ReadableArgs args) (startType : StartType) :
    Passes host.app dataPath lifecycle.appInfo args startType .success := by
  refine ⟨⟨⟨readable, legible.args, ?_, rfl, rfl⟩, ?_, ?_⟩, fun _ => ?_⟩
  · cases isLog : lifecycle.appInfo.log with
    | none => exact legible.fileName
    | some log => exact legible.log log isLog
  · exact stoppable_success orderly.currentReadable
  · unfold Startable
    split
    · exact ⟨legible.image (by assumption), legible.fileName, rfl⟩
    · exact ⟨legible.dataPath, legible.fileName, rfl⟩
  · exact stoppable_success orderly.otherReadable

/-- Between two lifecycles the other instance runs the last application. -/
structure Between (host : Host) (docker : Bool) : Prop where
  orderly : Orderly host
  current : host.app.current.docker = false
  other : host.app.other.docker = docker

/-- The first launch of a lifecycle fills the current instance. -/
theorem Between.filled (between : Between host docker) (legible : lifecycle.Legible dataPath) :
    Orderly (launch dataPath host lifecycle.sync) ∧
      (launch dataPath host lifecycle.sync).app = host.app.filled lifecycle.appInfo
        (startedChild host.machine lifecycle.appInfo) := by
  refine ⟨between.orderly.launch lifecycle.sync nofun, ?_⟩
  have passes := legible.passes between.orderly legible.syncArgs .sync
  rcases between.orderly.launch_cases dataPath lifecycle.sync with
    ⟨_, isApp, _⟩ | ⟨notPasses, _⟩
  · exact isApp
  · exact absurd passes notPasses

/-- The second launch is traceable unless it puts a native application in the place of a
container. -/
theorem Between.traceable_run_iff (between : Between host docker)
    (legible : lifecycle.Legible dataPath) :
    Traceable dataPath (launch dataPath host lifecycle.sync) lifecycle.run ↔
      (docker → lifecycle.appInfo.isDockerImage) := by
  obtain ⟨orderly, isFilled⟩ := between.filled legible
  have passes := legible.passes orderly legible.runArgs .run
  have otherDocker : (launch dataPath host lifecycle.sync).app.other.docker = docker := by
    rw [isFilled, RunningApp.filled_other, between.other]
  have isInfo : lifecycle.run.appInfo = lifecycle.appInfo := rfl
  rw [Traceable, isInfo]
  cases isDocker : lifecycle.appInfo.isDockerImage with
  | true =>
      refine iff_of_true (fun _ _ => ?_) fun _ => rfl
      rw [if_pos rfl]
      intro _ container isName
      left
      rw [isFilled, RunningApp.filled_current]
      exact ⟨isDocker, _, if_pos isDocker, isName⟩
  | false =>
      constructor
      · intro traceable isOther
        have native := traceable rfl passes
        rw [if_neg Bool.false_ne_true, otherDocker, isOther] at native
        cases native
      · intro native _ _
        rw [if_neg Bool.false_ne_true, otherDocker]
        exact Bool.eq_false_iff.mpr fun isOther => Bool.false_ne_true (native isOther)

/-- After a lifecycle the other instance runs its application. -/
theorem Between.next (between : Between host docker) (legible : lifecycle.Legible dataPath)
    (native : docker → lifecycle.appInfo.isDockerImage) :
    Between (launch dataPath (launch dataPath host lifecycle.sync) lifecycle.run)
      lifecycle.appInfo.isDockerImage := by
  obtain ⟨orderly, isFilled⟩ := between.filled legible
  have traceable := (between.traceable_run_iff legible).mpr native
  have passes := legible.passes orderly legible.runArgs .run
  rcases orderly.launch_cases dataPath lifecycle.run with ⟨_, isApp, _⟩ | ⟨notPasses, _⟩
  · refine ⟨orderly.launch lifecycle.run traceable, ?_, ?_⟩
    · rw [isApp]
      exact replaced_current_docker
    · rw [isApp]
      change (RunningApp.replaced _ _).other.docker = _
      rw [RunningApp.replaced_other, isFilled, RunningApp.filled_current,
        RunningApp.filled_other]
      split <;> rfl
  · exact absurd passes notPasses

/-- A lifecycle with texts that can be read keeps everything known if and only if it does
not put a native application in the place of a container. -/
theorem Between.admitted_iff (between : Between host docker)
    (legible : lifecycle.Legible dataPath) (rest : List Launch) :
    Admitted (launchStep dataPath) (Traceable dataPath) host
        (lifecycle.sync :: lifecycle.run :: rest) ↔
      (docker → lifecycle.appInfo.isDockerImage) ∧
        Admitted (launchStep dataPath) (Traceable dataPath)
          (launch dataPath (launch dataPath host lifecycle.sync) lifecycle.run) rest := by
  have syncTraceable : Traceable dataPath host lifecycle.sync := nofun
  simp only [Admitted, launchStep, Option.some.injEq, forall_eq']
  rw [between.traceable_run_iff legible, and_iff_right syncTraceable]

/-- Between lifecycles, the lifecycles to come keep everything known if and only if none
puts a native application in the place of a container. -/
theorem Between.admitted_launches_iff (between : Between host docker) {lifecycles : List Lifecycle}
    (legible : ∀ lifecycle ∈ lifecycles, lifecycle.Legible dataPath) :
    Admitted (launchStep dataPath) (Traceable dataPath) host (launches lifecycles) ↔
      (∀ first ∈ lifecycles.head?, docker → first.appInfo.isDockerImage) ∧
        lifecycles.IsChain fun before after =>
          before.appInfo.isDockerImage → after.appInfo.isDockerImage := by
  induction lifecycles generalizing host docker with
  | nil => simp [launches, Admitted]
  | cons first rest ih =>
      have isFirst := legible first List.mem_cons_self
      rw [List.isChain_cons]
      refine (between.admitted_iff isFirst (launches rest)).trans ?_
      simp only [List.head?_cons, Option.mem_some_iff, forall_eq']
      refine and_congr_right fun native => ?_
      exact ih (between.next isFirst native) fun lifecycle member =>
        legible lifecycle (List.mem_cons_of_mem _ member)

end Legible

/-- Every process and container that was started is known after each launch if and only if
no native application takes the place of a docker container and every container that is
started has the name of an instance.  With texts that can be read this means that no native
application comes directly after a docker application. -/
theorem tracked_throughout_iff (dataPath : Bytes) (lifecycles : List Lifecycle) :
    (Throughout (launchStep dataPath) Tracked fresh (launches lifecycles) ↔
      Admitted (launchStep dataPath) (Traceable dataPath) fresh (launches lifecycles)) ∧
    ((∀ lifecycle ∈ lifecycles, lifecycle.Legible dataPath) →
      (Throughout (launchStep dataPath) Tracked fresh (launches lifecycles) ↔
        lifecycles.IsChain fun before after =>
          before.appInfo.isDockerImage → after.appInfo.isDockerImage)) := by
  refine ⟨throughout_tracked_iff (launches lifecycles), fun legible => ?_⟩
  have between : Between fresh false := ⟨orderly_fresh, rfl, rfl⟩
  rw [throughout_tracked_iff, between.admitted_launches_iff legible, and_iff_right]
  exact fun _ _ => nofun

/-- A lifecycle of an application without arguments. -/
def plainLifecycle (appId : Nat) (isDockerImage : Bool) : Lifecycle where
  appInfo := plainApp appId isDockerImage
  syncArgs := none
  syncOptions := none
  runArgs := none
  runOptions := none

/-- Native applications one after the other are known. -/
theorem tracked_throughout_iff_native :
    Throughout (launchStep [47]) Tracked fresh
      (launches [plainLifecycle 1 false, plainLifecycle 2 false]) := by
  apply ((tracked_throughout_iff [47] _).2 _).mpr
  · simp [plainLifecycle, plainApp]
  · intro lifecycle member
    have readable : ∀ byte ∈ [47, 97, 99], Readable [byte] := by decide +kernel
    have noArgs : ReadableArgs none := by rintro _ ⟨⟩
    simp only [List.mem_cons, List.not_mem_nil, or_false] at member
    rcases member with rfl | rfl <;>
      exact ⟨readable 47 (by decide), readable 97 (by decide), noArgs, noArgs, by rintro ⟨⟩,
        noArgs, noArgs⟩

/-- A native application after a docker application is forgotten. -/
theorem not_tracked_throughout :
    ¬∀ (dataPath : Bytes) (lifecycles : List Lifecycle),
      Throughout (launchStep dataPath) Tracked fresh (launches lifecycles) := by
  intro tracked
  have throughout := tracked [47] [plainLifecycle 1 true, plainLifecycle 2 false]
  let after := (launches [plainLifecycle 1 true, plainLifecycle 2 false]).foldl (launch [47]) fresh
  have known : Tracked after := (throughout.2 _ rfl).2 _ rfl |>.2 _ rfl |>.2 _ rfl
  have alive : 1 ∈ after.machine.children := by decide +kernel
  have forgotten : after.app.instance1.process ≠ some 1 ∧ after.app.instance2.process ≠ some 1 := by
    decide +kernel
  rcases known.children 1 alive with isFirst | isSecond
  · exact forgotten.1 isFirst
  · exact forgotten.2 isSecond

end Popsicle.Node
