import Popsicle.Node.Tasks

/-!
# How tasks end

A task stops early for a text that cannot be read or for a call that fails.  The
conditions under which each part gets through are stated here on what the task is given
and on the record before it.  A task that stops early leaves the record as it was.
-/

namespace Popsicle.Node

open Foundation Exec

variable {host : Host} {app : RunningApp} {machine : Machine} {index : InstanceIndex}
  {dataPath : Bytes} {appInfo : DownloadInfo} {runArgs optionArgs : Option Bytes}
  {process : Option Child}

/-! ## The record and the machine -/

namespace InstanceIndex

@[simp] theorem other_other (index : InstanceIndex) : index.other.other = index := by
  cases index <;> rfl

@[simp] theorem other_ne (index : InstanceIndex) : index.other ≠ index := by
  cases index <;> decide

end InstanceIndex

namespace RunningApp

@[simp] theorem slot_withSlot (app : RunningApp) (index other : InstanceIndex) (slot : Slot) :
    (app.withSlot index slot).slot other = if other = index then slot else app.slot other := by
  cases index <;> cases other <;> rfl

@[simp] theorem withSlot_running (app : RunningApp) (index : InstanceIndex) (slot : Slot) :
    (app.withSlot index slot).running = app.running := by
  cases index <;> rfl

@[simp] theorem withSlot_groupId (app : RunningApp) (index : InstanceIndex) (slot : Slot) :
    (app.withSlot index slot).groupId = app.groupId := by
  cases index <;> rfl

@[simp] theorem withSlot_appInfo (app : RunningApp) (index : InstanceIndex) (slot : Slot) :
    (app.withSlot index slot).appInfo = app.appInfo := by
  cases index <;> rfl

@[simp] theorem withSlot_curIns (app : RunningApp) (index : InstanceIndex) (slot : Slot) :
    (app.withSlot index slot).curIns = app.curIns := by
  cases index <;> rfl

@[simp] theorem turn_slot (app : RunningApp) (index : InstanceIndex) :
    app.turn.slot index = app.slot index := by
  cases index <;> rfl

@[simp] theorem turn_curIns (app : RunningApp) : app.turn.curIns = app.curIns.other := rfl

@[simp] theorem turn_running (app : RunningApp) : app.turn.running = app.running := rfl

@[simp] theorem turn_groupId (app : RunningApp) : app.turn.groupId = app.groupId := rfl

@[simp] theorem turn_appInfo (app : RunningApp) : app.turn.appInfo = app.appInfo := rfl

/-- The current instance. -/
def current (app : RunningApp) : Slot := app.slot app.curIns

/-- The instance that is not current. -/
def other (app : RunningApp) : Slot := app.slot app.curIns.other

/-- The record once an application is started next to the other one. -/
def filled (app : RunningApp) (appInfo : DownloadInfo) (process : Option Child) : RunningApp :=
  app.withSlot app.curIns (filledSlot appInfo process)

/-- The record once an application is started in the place of the other one. -/
def replaced (app : RunningApp) (process : Option Child) : RunningApp :=
  if app.other.docker then
    (app.withSlot app.curIns.other { app.other with docker := false, dockerName := none }).turn
  else
    ((app.withSlot app.curIns { app.current with process }).withSlot app.curIns.other
      { app.other with process := none }).turn

@[simp] theorem filled_current (app : RunningApp) (appInfo : DownloadInfo)
    (process : Option Child) :
    (app.filled appInfo process).current = filledSlot appInfo process := by
  simp [filled, current]

@[simp] theorem filled_other (app : RunningApp) (appInfo : DownloadInfo)
    (process : Option Child) : (app.filled appInfo process).other = app.other := by
  simp [filled, other]

theorem replaced_current (app : RunningApp) (process : Option Child) :
    (app.replaced process).current =
      if app.other.docker then { app.other with docker := false, dockerName := none }
      else { app.other with process := none } := by
  unfold replaced
  split <;> simp [current]

/-- A native process is kept only if the other instance is no container. -/
theorem replaced_other (app : RunningApp) (process : Option Child) :
    (app.replaced process).other =
      if app.other.docker then app.current else { app.current with process } := by
  have ne : app.curIns ≠ app.curIns.other := (InstanceIndex.other_ne app.curIns).symm
  unfold replaced
  split
  · simp [other, ne]
    rfl
  · simp [other, ne]

end RunningApp

/-! ## Conditions -/

/-- Bytes that are a text. -/
def Readable (bytes : Bytes) : Prop := (fromUtf8 bytes).isSome

instance : DecidablePred Readable := fun bytes =>
  inferInstanceAs (Decidable ((fromUtf8 bytes).isSome = true))

theorem not_readable {bytes : Bytes} (notText : fromUtf8 bytes = none) : ¬Readable bytes := by
  simp [Readable, notText]

/-- Bytes that are a text, if there are any. -/
def ReadableArgs (args : Option Bytes) : Prop := ∀ bytes ∈ args, Readable bytes

instance : DecidablePred ReadableArgs := fun args =>
  inferInstanceAs (Decidable (∀ bytes ∈ args, Readable bytes))

/-- A run gets to the lock. -/
structure Prepared (appInfo : DownloadInfo) (runArgs : Option Bytes) (answers : RunAnswers) :
    Prop where
  runArgs : ReadableArgs runArgs
  args : ReadableArgs appInfo.args
  log : Readable (appInfo.log.getD appInfo.fileName)
  created : answers.logCreated
  cloned : answers.logCloned

instance (answers : RunAnswers) : Decidable (Prepared appInfo runArgs answers) :=
  decidable_of_iff
    (ReadableArgs runArgs ∧ ReadableArgs appInfo.args ∧
      Readable (appInfo.log.getD appInfo.fileName) ∧ answers.logCreated ∧ answers.logCloned)
    ⟨fun ⟨runArgs, args, log, created, cloned⟩ => ⟨runArgs, args, log, created, cloned⟩,
      fun ⟨runArgs, args, log, created, cloned⟩ => ⟨runArgs, args, log, created, cloned⟩⟩

/-- An instance can be stopped. -/
def Stoppable (slot : Slot) (answers : StopAnswers) : Prop :=
  if slot.docker then ReadableArgs slot.dockerName
  else slot.process.isSome → answers.killed ∧ answers.waited

instance (slot : Slot) (answers : StopAnswers) : Decidable (Stoppable slot answers) :=
  inferInstanceAs (Decidable (if slot.docker then _ else _))

/-- An application can be started. -/
def Startable (dataPath : Bytes) (appInfo : DownloadInfo) (answers : RunAnswers) : Prop :=
  if appInfo.isDockerImage then
    (∃ image ∈ appInfo.dockerImage, Readable image) ∧ Readable appInfo.fileName ∧
      answers.logClonedAgain
  else Readable dataPath ∧ Readable appInfo.fileName ∧ answers.spawned

instance (answers : RunAnswers) : Decidable (Startable dataPath appInfo answers) :=
  inferInstanceAs (Decidable (if appInfo.isDockerImage then _ else _))

/-! ## What tasks do to the machine -/

/-- The machine once an instance is stopped. -/
def Machine.stopped (machine : Machine) (slot : Slot) (answers : StopAnswers) : Machine :=
  if slot.docker then
    match slot.dockerName.bind fromUtf8 with
    | some container =>
        if answers.removal.stop.spawned && answers.removal.stop.waited &&
            answers.removal.remove.spawned && answers.removal.removed then
          machine.remove container
        else machine
    | none => machine
  else
    match slot.process with
    | some child => machine.kill child
    | none => machine

/-- The machine once an application is started. -/
def Machine.started (machine : Machine) (appInfo : DownloadInfo) (optionArgs : Option Bytes)
    (answers : RunAnswers) : Machine :=
  if appInfo.isDockerImage then
    match fromUtf8 appInfo.fileName with
    | some container =>
        if ReadableArgs optionArgs ∧ answers.container.run.spawned ∧ answers.container.started then
          machine.start container
        else machine
    | none => machine
  else machine.spawn

/-- The child that a started application is. -/
def startedChild (machine : Machine) (appInfo : DownloadInfo) : Option Child :=
  if appInfo.isDockerImage then none else some machine.spawned

/-! ## Outcomes -/

section Rules

variable {α : Type} {excuse : Stop → Host → Prop}

@[simp] theorem ends_onApp {post : Unit → Host → Prop} (update : RunningApp → RunningApp) :
    (onApp update).Ends host post excuse ↔ post () { host with app := update host.app } :=
  Iff.rfl

@[simp] theorem ends_onMachine {post : Unit → Host → Prop} (update : Machine → Machine) :
    (onMachine update).Ends host post excuse ↔
      post () { host with machine := update host.machine } := Iff.rfl

@[simp] theorem ends_call {post : Unit → Host → Prop} (made : Call) :
    (call made).Ends host post excuse ↔ post () { host with calls := made :: host.calls } :=
  Iff.rfl

@[simp] theorem ends_attempt {body : NodeM α} {post : Option α → Host → Prop} :
    (attempt body).Ends host post excuse ↔
      body.Ends host (fun value => post (some value)) fun stop after =>
        match stop with
        | .error => post none after
        | .panic => excuse .panic after := by
  rw [attempt, ends_handle, ends_bind]
  constructor <;> refine fun ends => ends.mono (fun _ _ => id) fun stop after excused => ?_ <;>
    cases stop <;> exact excused

end Rules

/-- Only calls were made. -/
structure Untouched (host after : Host) : Prop where
  app : after.app = host.app
  machine : after.machine = host.machine

theorem Untouched.trans {middle after : Host} (first : Untouched host middle)
    (second : Untouched middle after) : Untouched host after :=
  ⟨second.app.trans first.app, second.machine.trans first.machine⟩

theorem ends_argsOf {args : Option Bytes} :
    (argsOf args).Ends host (fun _ after => ReadableArgs args ∧ after = host)
      fun stop after => stop = .error ∧ ¬ReadableArgs args ∧ after = host := by
  cases args with
  | none => simp [argsOf, ReadableArgs]
  | some bytes =>
      simp only [argsOf, ends_bind, ends_require, ends_pure, ReadableArgs, Readable]
      constructor
      · intro text isText
        simp [isText]
      · intro notText
        simp [notText]

theorem ends_prepareRun {answers : RunAnswers} :
    (prepareRun appInfo runArgs answers).Ends host
      (fun _ after => Prepared appInfo runArgs answers ∧ Untouched host after)
      fun stop after => stop = .error ∧ ¬Prepared appInfo runArgs answers ∧
        Untouched host after := by
  simp only [prepareRun, ends_bind]
  refine ends_argsOf.mono ?_ ?_
  · rintro _ _ ⟨runArgs, same⟩
    refine ends_argsOf.mono ?_ ?_
    · rintro _ _ ⟨args, alsoSame⟩
      subst same alsoSame
      simp only [ends_require, ends_call, ends_ensure, ends_pure]
      refine ⟨fun text isText => ⟨fun created => ⟨fun cloned => ?_, fun notCloned => ?_⟩,
        fun notCreated => ?_⟩, fun notText => ?_⟩
      · exact ⟨⟨runArgs, args, by simp [Readable, isText], created, cloned⟩, rfl, rfl⟩
      · exact ⟨trivial, fun prepared => notCloned prepared.cloned, rfl, rfl⟩
      · exact ⟨trivial, fun prepared => notCreated prepared.created, rfl, rfl⟩
      · exact ⟨trivial, fun prepared => not_readable notText prepared.log, rfl, rfl⟩
    · rintro _ _ ⟨isError, unreadable, alsoSame⟩
      subst same alsoSame
      exact ⟨isError, fun prepared => unreadable prepared.args, rfl, rfl⟩
  · rintro _ _ ⟨isError, unreadable, same⟩
    subst same
    exact ⟨isError, fun prepared => unreadable prepared.runArgs, rfl, rfl⟩

theorem ends_removeDockerContainer {container : String} {answers : RemovalAnswers} :
    let removed := if answers.stop.spawned && answers.stop.waited && answers.remove.spawned &&
      answers.removed then host.machine.remove container else host.machine
    (removeDockerContainer container answers).Ends host
      (fun _ after => after.app = host.app ∧ after.machine = removed)
      fun stop after => stop = .error ∧ after.app = host.app ∧ after.machine = removed := by
  intro removed
  simp only [removeDockerContainer, dockerCommand, ends_bind, ends_call, ends_ensure, ends_ite,
    ends_onMachine, removed]
  cases answers.stop.spawned <;> cases answers.stop.waited <;>
    cases answers.remove.spawned <;> cases answers.removed <;> simp

theorem ends_stopInstance {answers : StopAnswers} :
    (stopInstance index answers).Ends host
      (fun _ after => Stoppable (host.app.slot index) answers ∧ after.app = host.app ∧
        after.machine = host.machine.stopped (host.app.slot index) answers)
      fun stop after => stop = .error ∧ ¬Stoppable (host.app.slot index) answers ∧
        after.app = host.app := by
  generalize isSlot : host.app.slot index = slot
  simp only [stopInstance, ends_bind, ends_read, isSlot, ends_ite, Stoppable, Machine.stopped]
  constructor
  · intro isDocker
    cases isName : slot.dockerName with
    | none => simp [isDocker, ReadableArgs]
    | some name =>
        simp only [isDocker, ends_bind, ends_require, ends_attempt, ReadableArgs, Readable]
        constructor
        · intro container isContainer
          refine ends_removeDockerContainer.mono ?_ ?_
          · rintro _ after ⟨sameApp, removed⟩
            simp [sameApp, removed, isContainer]
          · rintro _ after ⟨isError, sameApp, removed⟩
            subst isError
            simp [sameApp, removed, isContainer]
        · intro notText
          simp [notText]
  · intro notDocker
    cases isProcess : slot.process with
    | none => simp [notDocker]
    | some child =>
        simp only [notDocker, ends_bind, ends_ensure, ends_onMachine]
        refine ⟨fun killed => ⟨fun waited => ?_, fun notWaited => ?_⟩, fun notKilled => ?_⟩
        · simp [killed, waited]
        · simp [notWaited]
        · simp [notKilled]

/-- A docker container is started if docker does so and its options can be read. -/
theorem ends_startDockerContainer {container dockerImage : String} {inArgs : List String}
    {answers : ContainerAnswers} :
    let started := if ReadableArgs optionArgs ∧ answers.run.spawned ∧ answers.started then
      host.machine.start container else host.machine
    (startDockerContainer container dockerImage inArgs optionArgs answers).Ends host
      (fun _ after => after.app = host.app ∧ after.machine = started)
      fun stop after => stop = .error ∧ after.app = host.app ∧ after.machine = started := by
  intro started
  cases optionArgs with
  | none =>
      simp only [startDockerContainer, ends_bind, ends_call, ends_ensure, ends_ite,
        ends_onMachine, ends_pure, started, ReadableArgs]
      cases answers.run.spawned <;> cases answers.started <;> simp
  | some option =>
      simp only [startDockerContainer, ends_bind, ends_call, ends_ensure, ends_ite,
        ends_onMachine, ends_pure, ends_require, started, ReadableArgs, Readable]
      cases isText : fromUtf8 option <;> cases answers.run.spawned <;>
        cases answers.started <;> simp [isText]

/-- An application is started where it can be, and a native one panics where it cannot. -/
theorem ends_startInstance {args : List String} {answers : RunAnswers} :
    (startInstance dataPath appInfo args optionArgs answers).Ends host
      (fun process after => Startable dataPath appInfo answers ∧
        process = startedChild host.machine appInfo ∧ after.app = host.app ∧
        after.machine = host.machine.started appInfo optionArgs answers)
      fun stop after => ¬Startable dataPath appInfo answers ∧
        (stop = .panic ↔ appInfo.isDockerImage = false ∧
          (Readable dataPath → Readable appInfo.fileName)) ∧ Untouched host after := by
  simp only [startInstance, ends_ite, Startable, startedChild, Machine.started]
  constructor
  · intro isDocker
    simp only [isDocker, ends_bind, ends_require, ends_ensure, ends_attempt, ends_pure]
    refine ⟨fun image isImage => ⟨fun dockerImage isText => ⟨fun container isContainer =>
      ⟨fun cloned => ?_, fun notCloned => ?_⟩, fun notText => ?_⟩, fun notText => ?_⟩,
      fun noImage => ?_⟩
    · refine ends_startDockerContainer.mono ?_ ?_
      · rintro _ after ⟨sameApp, started⟩
        simp [sameApp, started, isImage, isText, isContainer, cloned, Readable]
      · rintro _ after ⟨isError, sameApp, started⟩
        subst isError
        simp [sameApp, started, isImage, isText, isContainer, cloned, Readable]
    · exact ⟨by simp [notCloned], by simp, rfl, rfl⟩
    · exact ⟨by simp [Readable, notText], by simp, rfl, rfl⟩
    · exact ⟨by simp [Readable, isImage, notText], by simp, rfl, rfl⟩
    · exact ⟨by simp [noImage], by simp, rfl, rfl⟩
  · intro notDocker
    simp only [notDocker, ends_bind, ends_require, ends_ensure, ends_call, ends_read,
      ends_onMachine, ends_pure]
    refine ⟨fun directory isDirectory => ⟨fun fileName isText => ⟨fun spawned => ?_,
      fun notSpawned => ?_⟩, fun notText => ?_⟩, fun notDirectory => ?_⟩
    · simp [isDirectory, isText, spawned, Readable]
    · exact ⟨by simp [notSpawned], by simp [isText, Readable], rfl, rfl⟩
    · exact ⟨by simp [Readable, notText], by simp [isDirectory, notText, Readable], rfl, rfl⟩
    · exact ⟨by simp [Readable, notDirectory], by simp [notDirectory, Readable], rfl, rfl⟩

theorem ends_replaceInstance {answers : RunAnswers} :
    (replaceInstance process answers).Ends host
      (fun _ after => Stoppable host.app.other answers.otherStopped ∧
        after.app = host.app.replaced process ∧
        after.machine = host.machine.stopped host.app.other answers.otherStopped)
      fun stop after => stop = .error ∧ ¬Stoppable host.app.other answers.otherStopped ∧
        after.app = host.app := by
  simp only [replaceInstance, ends_bind, ends_read, ends_ite, ends_onApp]
  refine ends_stopInstance.mono ?_ ?_
  · rintro _ after ⟨stoppable, sameApp, stopped⟩
    constructor
    · intro isDocker
      refine ⟨stoppable, ?_, stopped⟩
      simp [sameApp, RunningApp.replaced, RunningApp.other, isDocker]
    · intro notDocker
      refine ⟨stoppable, ?_, stopped⟩
      simp [sameApp, RunningApp.replaced, RunningApp.other, RunningApp.current, notDocker]
  · intro _ after excused
    exact excused

/-! ## `process_run_task` -/

/-- Under the lock, the application that is started next to the other one is. -/
structure Fills (app : RunningApp) (dataPath : Bytes) (appInfo : DownloadInfo)
    (runArgs : Option Bytes) (answers : RunAnswers) : Prop where
  prepared : Prepared appInfo runArgs answers
  stoppable : Stoppable app.current answers.oldStopped
  startable : Startable dataPath appInfo answers

/-- A run gets through. -/
def Passes (app : RunningApp) (dataPath : Bytes) (appInfo : DownloadInfo)
    (runArgs : Option Bytes) (startType : StartType) (answers : RunAnswers) : Prop :=
  Fills app dataPath appInfo runArgs answers ∧
    (startType = .run → Stoppable app.other answers.otherStopped)

/-- A run panics: it cannot start a native application. -/
structure Panics (app : RunningApp) (dataPath : Bytes) (appInfo : DownloadInfo)
    (runArgs : Option Bytes) (answers : RunAnswers) : Prop where
  prepared : Prepared appInfo runArgs answers
  stoppable : Stoppable app.current answers.oldStopped
  native : appInfo.isDockerImage = false
  failed : ¬Startable dataPath appInfo answers
  named : Readable dataPath → Readable appInfo.fileName

/-- The record once a run is through. -/
def RunningApp.ran (app : RunningApp) (appInfo : DownloadInfo) (process : Option Child) :
    StartType → RunningApp
  | .sync => app.filled appInfo process
  | .run => app.replaced process

/-- The machine once a run is through. -/
def RunningApp.machineRan (app : RunningApp) (machine : Machine) (appInfo : DownloadInfo)
    (optionArgs : Option Bytes) (answers : RunAnswers) : StartType → Machine
  | .sync => (machine.stopped app.current answers.oldStopped).started appInfo optionArgs answers
  | .run => ((machine.stopped app.current answers.oldStopped).started appInfo optionArgs
      answers).stopped app.other answers.otherStopped

@[simp] theorem Machine.stopped_spawned (machine : Machine) (slot : Slot)
    (answers : StopAnswers) : (machine.stopped slot answers).spawned = machine.spawned := by
  unfold Machine.stopped
  split <;> split <;> first | rfl | split <;> rfl

@[simp] theorem startedChild_stopped (machine : Machine) (slot : Slot) (answers : StopAnswers) :
    startedChild (machine.stopped slot answers) appInfo = startedChild machine appInfo := by
  simp [startedChild]

/-- What a run does.  One that stops early leaves the record alone. -/
theorem ends_processRunTask {startType : StartType} {answers : RunAnswers} :
    (processRunTask dataPath appInfo runArgs optionArgs startType answers).Ends host
      (fun _ after => Passes host.app dataPath appInfo runArgs startType answers ∧
        after.app = host.app.ran appInfo (startedChild host.machine appInfo) startType ∧
        after.machine = host.app.machineRan host.machine appInfo optionArgs answers startType)
      fun stop after => ¬Passes host.app dataPath appInfo runArgs startType answers ∧
        (stop = .panic ↔ Panics host.app dataPath appInfo runArgs answers) ∧
        after.app = host.app ∧
        (Stoppable host.app.current answers.oldStopped →
          (startType = .run → Stoppable host.app.other answers.otherStopped) →
          after.machine = host.machine ∨
            after.machine = host.machine.stopped host.app.current answers.oldStopped) := by
  simp only [processRunTask, runSection, ends_bind, ends_read]
  refine ends_prepareRun.mono ?_ ?_
  · rintro args prepared ⟨isPrepared, sameApp, sameMachine⟩
    refine ends_stopInstance.mono ?_ ?_
    · rintro _ stopped ⟨stoppable, sameApp', isStopped⟩
      rw [sameApp, sameMachine] at isStopped
      rw [sameApp] at stoppable sameApp'
      refine ends_startInstance.mono ?_ ?_
      · rintro process started ⟨startable, isProcess, sameApp'', isStarted⟩
        have fills : Fills host.app dataPath appInfo runArgs answers :=
          ⟨isPrepared, stoppable, startable⟩
        rw [sameApp'] at sameApp''
        rw [isStopped] at isProcess isStarted
        subst isProcess
        cases startType with
        | sync =>
            simp only [fillInstance, ends_onApp]
            refine ⟨⟨fills, by simp⟩, ?_, isStarted⟩
            simp [sameApp'', RunningApp.ran, RunningApp.filled]
        | run =>
            refine ends_replaceInstance.mono ?_ ?_
            · rintro _ after ⟨otherStoppable, isReplaced, otherStopped⟩
              rw [sameApp''] at otherStoppable isReplaced otherStopped
              refine ⟨⟨fills, fun _ => otherStoppable⟩, ?_, ?_⟩
              · simpa [RunningApp.ran] using isReplaced
              · rw [otherStopped, isStarted]
                rfl
            · rintro stop after ⟨isError, notStoppable, sameApp'''⟩
              rw [sameApp''] at notStoppable sameApp'''
              subst isError
              refine ⟨fun passes => notStoppable (passes.2 rfl), ?_, sameApp''', ?_⟩
              · exact ⟨by rintro ⟨⟩, fun panics => absurd startable panics.failed⟩
              · intro _ otherStoppable
                exact absurd (otherStoppable rfl) notStoppable
      · rintro stop after ⟨notStartable, isPanic, untouched⟩
        refine ⟨fun passes => notStartable passes.1.startable, ?_, ?_, fun _ _ => .inr ?_⟩
        · rw [isPanic]
          constructor
          · rintro ⟨native, named⟩
            exact ⟨isPrepared, stoppable, native, notStartable, named⟩
          · intro panics
            exact ⟨panics.native, panics.named⟩
        · rw [untouched.app, sameApp']
        · rw [untouched.machine, isStopped]
          rfl
    · rintro stop after ⟨isError, notStoppable, sameApp'⟩
      rw [sameApp] at notStoppable sameApp'
      subst isError
      refine ⟨fun passes => notStoppable passes.1.stoppable, ?_, sameApp', ?_⟩
      · exact ⟨by rintro ⟨⟩, fun panics => absurd panics.stoppable notStoppable⟩
      · intro stoppable
        exact absurd stoppable notStoppable
  · rintro stop after ⟨isError, notPrepared, untouched⟩
    subst isError
    refine ⟨fun passes => notPrepared passes.1.prepared, ?_, untouched.app, fun _ _ => .inl ?_⟩
    · exact ⟨by rintro ⟨⟩, fun panics => absurd panics.prepared notPrepared⟩
    · exact untouched.machine

/-- A start next to the other instance that ends with an error is given up. -/
theorem ends_syncDownloaded {answers : RunAnswers} :
    (syncDownloaded dataPath appInfo runArgs optionArgs answers).Ends host
      (fun result after => ¬Panics host.app dataPath appInfo runArgs answers ∧
        ((result.isSome ∧ Fills host.app dataPath appInfo runArgs answers ∧
            after.app = host.app.filled appInfo (startedChild host.machine appInfo)) ∨
          (result = none ∧ ¬Fills host.app dataPath appInfo runArgs answers ∧
            after.app = host.app)))
      fun _ after => Panics host.app dataPath appInfo runArgs answers ∧ after.app = host.app := by
  rw [syncDownloaded, ends_attempt]
  refine ends_processRunTask.mono ?_ ?_
  · rintro _ after ⟨passes, isApp, _⟩
    exact ⟨fun panics => panics.failed passes.1.startable, .inl ⟨rfl, passes.1, isApp⟩⟩
  · rintro stop after ⟨notPasses, isPanic, sameApp, _⟩
    have notFills : ¬Fills host.app dataPath appInfo runArgs answers :=
      fun fills => notPasses ⟨fills, nofun⟩
    cases stop with
    | error =>
        refine ⟨fun panics => ?_, .inr ⟨rfl, notFills, sameApp⟩⟩
        cases isPanic.mpr panics
    | panic => exact ⟨isPanic.mp rfl, sameApp⟩

/-! ## `process_download_task` -/

/-- The search for a docker image ends with an answer. -/
structure Searched (answers : ImageAnswers) : Prop where
  listed : answers.listed
  filtered : answers.filtered
  filterEnded : answers.filterEnded
  listEnded : answers.listEnded
  output : Readable answers.output

/-- The search for a docker image finds it. -/
def Found (answers : ImageAnswers) : Prop :=
  ∃ text ∈ fromUtf8 answers.output, 0 < text.utf8ByteSize

/-- The application is not there as a file. -/
def Needed (appInfo : DownloadInfo) (answers : DownloadAnswers) : Prop :=
  answers.opened → ∃ digest ∈ answers.digest, digest ≠ appInfo.appHash

/-- Nothing ends the preparation of a download before its time. -/
def Uninterrupted (dataPath : Bytes) (appInfo : DownloadInfo) (answers : DownloadAnswers) : Prop :=
  if appInfo.isDockerImage then
    ∀ image ∈ appInfo.dockerImage, Readable image ∧ Searched answers.image ∧
      (¬Found answers.image →
        (answers.pull.spawned ∧ answers.pull.waited) ∧ Searched answers.imageAgain)
  else
    (Readable appInfo.url ∧ Readable dataPath ∧ Readable appInfo.fileName) ∧
      (Needed appInfo answers → answers.fetched ≠ .error .panic)

/-- A docker image is searched for where all its commands end. -/
theorem ends_checkDockerImageExist {dockerImage : String} {answers : ImageAnswers} :
    (checkDockerImageExist dockerImage answers).Ends host
      (fun found after => Searched answers ∧ (found ↔ Found answers) ∧ Untouched host after)
      fun _ after => ¬Searched answers ∧ Untouched host after := by
  simp only [checkDockerImageExist, ends_bind, ends_call, ends_ensure, ends_require, ends_pure]
  refine ⟨fun listed => ⟨fun filtered => ⟨fun filterEnded => ⟨fun listEnded => ⟨fun text isText =>
    ?_, fun notText => ?_⟩, fun notEnded => ?_⟩, fun notEnded => ?_⟩, fun notFiltered => ?_⟩,
    fun notListed => ?_⟩
  · refine ⟨⟨listed, filtered, filterEnded, listEnded, by simp [Readable, isText]⟩, ?_, rfl, rfl⟩
    simp [Found, isText]
  · exact ⟨fun searched => not_readable notText searched.output, rfl, rfl⟩
  · exact ⟨fun searched => notEnded searched.listEnded, rfl, rfl⟩
  · exact ⟨fun searched => notEnded searched.filterEnded, rfl, rfl⟩
  · exact ⟨fun searched => notFiltered searched.filtered, rfl, rfl⟩
  · exact ⟨fun searched => notListed searched.listed, rfl, rfl⟩

/-- The preparation of a docker image ends where nothing interrupts it. -/
theorem ends_prepareImage {answers : DownloadAnswers} (isDocker : appInfo.isDockerImage) :
    (prepareImage appInfo answers).Ends host
      (fun _ after => Uninterrupted dataPath appInfo answers ∧ Untouched host after)
      fun _ after => ¬Uninterrupted dataPath appInfo answers ∧ Untouched host after := by
  unfold Uninterrupted
  rw [if_pos isDocker]
  cases isImage : appInfo.dockerImage with
  | none =>
      simp only [prepareImage, isImage, ends_pure]
      exact ⟨by rintro _ ⟨⟩, rfl, rfl⟩
  | some image =>
      simp only [prepareImage, isImage, ends_bind, ends_require, Option.mem_some_iff, forall_eq']
      refine ⟨fun dockerImage isText => ?_, fun notText => ?_⟩
      · have readable : Readable image := by simp [Readable, isText]
        refine ends_checkDockerImageExist.mono ?_ ?_
        · rintro found searched ⟨isSearched, isFound, untouched⟩
          rw [ends_ite]
          refine ⟨fun wasFound => ?_, fun notFound => ?_⟩
          · exact ⟨⟨readable, isSearched, fun notFound => absurd (isFound.mp wasFound) notFound⟩,
              untouched⟩
          · have missing : ¬Found answers.image := fun there => notFound (isFound.mpr there)
            simp only [downloadDockerImage, dockerCommand, ends_bind, ends_call, ends_ensure]
            refine ⟨fun spawned => ⟨fun waited => ?_, fun notWaited => ?_⟩, fun notSpawned => ?_⟩
            · refine ends_checkDockerImageExist.mono ?_ ?_
              · rintro _ after ⟨isSearchedAgain, _, alsoUntouched⟩
                exact ⟨⟨readable, isSearched, fun _ => ⟨⟨spawned, waited⟩, isSearchedAgain⟩⟩,
                  untouched.trans ⟨alsoUntouched.app, alsoUntouched.machine⟩⟩
              · rintro _ after ⟨notSearched, alsoUntouched⟩
                exact ⟨fun whole => notSearched (whole.2.2 missing).2,
                  untouched.trans ⟨alsoUntouched.app, alsoUntouched.machine⟩⟩
            · exact ⟨fun whole => notWaited (whole.2.2 missing).1.2, untouched.app,
                untouched.machine⟩
            · exact ⟨fun whole => notSpawned (whole.2.2 missing).1.1, untouched.app,
                untouched.machine⟩
        · rintro _ after ⟨notSearched, untouched⟩
          exact ⟨fun whole => notSearched whole.2.1, untouched⟩
      · exact ⟨fun whole => not_readable notText whole.1, rfl, rfl⟩

/-- Whether a file is needed is found out, unless it cannot be read. -/
theorem ends_needDownload {path : String} {answers : DownloadAnswers} :
    (needDownload path appInfo.appHash answers).Ends host
      (fun needed after => (needed ↔ Needed appInfo answers) ∧ Untouched host after)
      fun stop after => stop = .error ∧ ¬Needed appInfo answers ∧ Untouched host after := by
  simp only [needDownload, ends_bind, ends_call, ends_ite, ends_require, ends_pure, Needed]
  refine ⟨fun opened => ⟨fun digest isDigest => ?_, fun noDigest => ?_⟩, fun notOpened => ?_⟩
  · exact ⟨by simp [opened, isDigest], rfl, rfl⟩
  · exact ⟨trivial, by simp [opened, noDigest], rfl, rfl⟩
  · exact ⟨by simp [notOpened], rfl, rfl⟩

/-- The preparation of a file ends where nothing interrupts it. -/
theorem ends_prepareFile {answers : DownloadAnswers} (native : appInfo.isDockerImage = false) :
    (prepareFile dataPath appInfo answers).Ends host
      (fun _ after => Uninterrupted dataPath appInfo answers ∧ Untouched host after)
      fun _ after => ¬Uninterrupted dataPath appInfo answers ∧ Untouched host after := by
  unfold Uninterrupted
  rw [if_neg (Bool.eq_false_iff.mp native)]
  simp only [prepareFile, ends_bind, ends_require, ends_attempt]
  refine ⟨fun url isUrl => ⟨fun directory isDirectory => ⟨fun fileName isName => ?_,
    fun notText => ?_⟩, fun notText => ?_⟩, fun notText => ?_⟩
  · have readable : Readable appInfo.url ∧ Readable dataPath ∧ Readable appInfo.fileName := by
      simp [Readable, isUrl, isDirectory, isName]
    refine ends_needDownload.mono ?_ ?_
    · rintro needed after ⟨isNeeded, untouched⟩
      cases needed with
      | false =>
          refine ⟨⟨readable, fun needed => ?_⟩, untouched⟩
          exact absurd (isNeeded.mpr needed) Bool.false_ne_true
      | true =>
          simp only [ends_bind, ends_call]
          rcases isFetched : answers.fetched with (_ | _) | _
          · exact ⟨⟨readable, by rintro _ ⟨⟩⟩, untouched.app, untouched.machine⟩
          · exact ⟨fun whole => whole.2 (isNeeded.mp rfl) rfl, untouched.app, untouched.machine⟩
          · exact ⟨⟨readable, by rintro _ ⟨⟩⟩, untouched.app, untouched.machine⟩
    · rintro stop after ⟨isError, notNeeded, untouched⟩
      subst isError
      exact ⟨⟨readable, fun needed => absurd needed notNeeded⟩, untouched⟩
  · exact ⟨fun whole => not_readable notText whole.1.2.2, rfl, rfl⟩
  · exact ⟨fun whole => not_readable notText whole.1.2.1, rfl, rfl⟩
  · exact ⟨fun whole => not_readable notText whole.1.1, rfl, rfl⟩

/-- The preparation of a download ends where nothing interrupts it. -/
theorem ends_prepareDownload {answers : DownloadAnswers} :
    (prepareDownload dataPath appInfo answers).Ends host
      (fun _ after => Uninterrupted dataPath appInfo answers ∧ Untouched host after)
      fun _ after => ¬Uninterrupted dataPath appInfo answers ∧ Untouched host after := by
  unfold prepareDownload
  split
  · exact ends_prepareImage (by assumption)
  · exact ends_prepareFile (Bool.eq_false_iff.mpr (by assumption))

end Popsicle.Node
