import Popsicle.Foundation.Run
import Popsicle.Node.Outcomes

/-!
# The node at work

With each new best head the node looks whether it has an application to download and
whether the downloaded one is to run, and spawns a task for it.  A step is what one task
does while it holds the lock.  The tasks take their steps in any order.

The node does not number its downloads.  Here each gets a ticket, and the sections that
start an application next to the other one are written down, to tell them apart.
-/

namespace Popsicle.Node

open Foundation Exec

/-! ## State -/

/-- The arguments that are stored on the node, if it has a storage. -/
abbrev Storage := Option (String → Option Bytes)

/-- A download with its ticket. -/
structure Download where
  ticket : Nat
  appInfo : DownloadInfo
  newGroup : Nat
  syncArgs : Option Bytes
  optionArgs : Option Bytes

/-- How far a `process_download_task` is. -/
inductive DownloadPhase where
  | prepare
  | sync
  | settle (startFlag : Bool)

/-- A `process_download_task` that has not ended. -/
structure DownloadTask where
  download : Download
  phase : DownloadPhase

/-- A `process_run_task` that waits to take the place of the other instance, with the
ticket of its download and the number of starts before it was spawned. -/
structure RunTask where
  ticket : Nat
  mark : Nat
  appInfo : DownloadInfo
  runArgs : Option Bytes
  optionArgs : Option Bytes

/-- A start next to the other instance: where it was, whether it could and did get through,
and what it left. -/
structure Synced where
  ticket : Nat
  index : InstanceIndex
  possible : Bool
  filled : Bool
  slot : Slot

/-- The arguments that `handle_new_best_parachain_head` goes on with. -/
structure HeadArgs where
  runArgs : Option Bytes
  optionArgs : Option Bytes

/-- The node with its tasks: the call of the handler that has not ended, the downloads and
the runs; and the numbers of the downloads so far, of the one that is ready, and the starts
so far, the last one first. -/
structure Worker where
  host : Host
  handling : Option HeadArgs
  downloads : List DownloadTask
  runs : List RunTask
  loads : Nat
  ready : Nat
  syncs : List Synced

/-- The node before the first head. -/
def Worker.start (machine : Machine) : Worker where
  host := { app := .default, machine, calls := [] }
  handling := none
  downloads := []
  runs := []
  loads := 0
  ready := 0
  syncs := []

/-! ## `handle_new_best_parachain_head` -/

def storedArgs (storage : Storage) (key : String) : Option Bytes :=
  storage.bind fun stored => stored key

/-- The arguments for all applications, or those for the given one. -/
def argsFor (storage : Storage) (key : String) (appId : Nat) (args : Option Bytes) :
    Option Bytes :=
  args.or (storedArgs storage s!"{key}:{appId}")

/-- Whether an application is to be downloaded: it is of another group, and none is. -/
def Loads (app : RunningApp) (appInfo : DownloadInfo) : Prop :=
  app.groupId ≠ appInfo.group ∧ app.running = .pending

instance (app : RunningApp) (appInfo : DownloadInfo) : Decidable (Loads app appInfo) :=
  inferInstanceAs (Decidable (_ ∧ _))

/-- Spawn the download of an application. -/
def Worker.spawnDownload (worker : Worker) (appInfo : DownloadInfo)
    (syncArgs optionArgs : Option Bytes) : Worker :=
  { worker with
    host := { worker.host with
      app := { worker.host.app with running := .downloading, appId := appInfo.appId } }
    downloads := worker.downloads ++ [
      { download :=
          { ticket := worker.loads, appInfo, newGroup := appInfo.group, syncArgs, optionArgs }
        phase := .prepare }]
    loads := worker.loads + 1 }

/-- The first section of the handler. -/
def Worker.load (worker : Worker) (storage : Storage) (shouldLoad : Option DownloadInfo) :
    Worker :=
  let runArgs := storedArgs storage "run_args"
  let syncArgs := storedArgs storage "sync_args"
  let optionArgs := storedArgs storage "option_args"
  match shouldLoad with
  | some appInfo =>
      if Loads worker.host.app appInfo then
        let syncArgs := argsFor storage "sync_args" appInfo.appId syncArgs
        let optionArgs := argsFor storage "option_args" appInfo.appId optionArgs
        { worker.spawnDownload appInfo syncArgs optionArgs with
          handling := some { runArgs, optionArgs } }
      else { worker with handling := some { runArgs, optionArgs } }
  | none => { worker with handling := some { runArgs, optionArgs } }

/-- Spawn the run of an application. -/
def Worker.spawnRun (worker : Worker) (appInfo : DownloadInfo)
    (runArgs optionArgs : Option Bytes) : Worker :=
  { worker with
    host := { worker.host with app := { worker.host.app with running := .pending } }
    runs := worker.runs ++ [
      { ticket := worker.ready, mark := worker.syncs.length, appInfo, runArgs, optionArgs }] }

/-- The second section of the handler. -/
def Worker.launch (worker : Worker) (storage : Storage) (shouldRun : Bool) (args : HeadArgs) :
    Worker :=
  let app := worker.host.app
  let ended := { worker with handling := none }
  if shouldRun then
    match app.appInfo with
    | some appInfo =>
        if app.running = .downloaded then
          ended.spawnRun appInfo (argsFor storage "run_args" app.appId args.runArgs)
            (argsFor storage "option_args" app.appId args.optionArgs)
        else ended
    | none => ended
  else ended

/-! ## Steps -/

/-- A step of the handler or of a task.  The handler can also end with an error between its
sections. -/
inductive Action where
  | load (storage : Storage) (shouldLoad : Option DownloadInfo)
  | launch (storage : Storage) (shouldRun : Bool)
  | abandon
  | prepare (index : Nat) (answers : DownloadAnswers)
  | sync (index : Nat) (answers : RunAnswers)
  | settle (index : Nat)
  | run (index : Nat) (answers : RunAnswers)

/-- The steps of the handler. -/
def Action.ofHandler : Action → Bool
  | load .. | launch .. | abandon => true
  | _ => false

/-- A download goes on, unless it ended. -/
def Worker.goOn (worker : Worker) (index : Nat) (download : Download) :
    Option DownloadPhase → Worker
  | some phase => { worker with downloads := worker.downloads.set index { download, phase } }
  | none => { worker with downloads := worker.downloads.eraseIdx index }

/-- Get ready to start what is downloaded. -/
def Worker.prepare (dataPath : Bytes) (worker : Worker) (index : Nat) (download : Download)
    (answers : DownloadAnswers) : Worker :=
  match prepareDownload dataPath download.appInfo answers worker.host with
  | (.ok true, host) => { worker with host }.goOn index download (some .sync)
  | (.ok false, host) => { worker with host }.goOn index download (some (.settle false))
  | (.error _, host) => { worker with host }.goOn index download none

/-- What is written down of a start, if it gets to the lock. -/
def Worker.note (dataPath : Bytes) (worker : Worker) (download : Download) (answers : RunAnswers)
    (filled : Bool) (host : Host) : Worker :=
  if Prepared download.appInfo download.syncArgs answers then
    { worker with
      syncs :=
        { ticket := download.ticket
          index := worker.host.app.curIns
          possible := decide (Stoppable worker.host.app.current answers.oldStopped ∧
            Startable dataPath download.appInfo answers)
          filled
          slot := host.app.slot worker.host.app.curIns } :: worker.syncs
      host }
  else { worker with host }

/-- Start what is downloaded next to the other instance. -/
def Worker.sync (dataPath : Bytes) (worker : Worker) (index : Nat) (download : Download)
    (answers : RunAnswers) : Worker :=
  match syncDownloaded dataPath download.appInfo download.syncArgs download.optionArgs answers
    worker.host with
  | (.ok result, host) =>
      (worker.note dataPath download answers result.isSome host).goOn index download
        (some (.settle true))
  | (.error _, host) =>
      (worker.note dataPath download answers false host).goOn index download none

/-- Take note of how a download ends. -/
def Worker.settle (worker : Worker) (index : Nat) (download : Download) (startFlag : Bool) :
    Worker :=
  let host := (settleDownload download.appInfo download.newGroup startFlag worker.host).2
  { worker with
    host
    ready := if startFlag then download.ticket else worker.ready }.goOn index download none

/-- Start an application in the place of the other instance. -/
def Worker.run (dataPath : Bytes) (worker : Worker) (index : Nat) (task : RunTask)
    (answers : RunAnswers) : Worker :=
  { worker with
    host := (processRunTask dataPath task.appInfo task.runArgs task.optionArgs .run answers
      worker.host).2
    runs := worker.runs.eraseIdx index }

/-- A step of the node, if the handler or the task can take it. -/
def workerStep (dataPath : Bytes) (worker : Worker) : Action → Option Worker
  | .load storage shouldLoad =>
      match worker.handling with
      | none => some (worker.load storage shouldLoad)
      | some _ => none
  | .launch storage shouldRun =>
      worker.handling.map fun args => worker.launch storage shouldRun args
  | .abandon => worker.handling.map fun _ => { worker with handling := none }
  | .prepare index answers =>
      match worker.downloads[index]? with
      | some ⟨download, .prepare⟩ => some (worker.prepare dataPath index download answers)
      | _ => none
  | .sync index answers =>
      match worker.downloads[index]? with
      | some ⟨download, .sync⟩ => some (worker.sync dataPath index download answers)
      | _ => none
  | .settle index =>
      match worker.downloads[index]? with
      | some ⟨download, .settle startFlag⟩ => some (worker.settle index download startFlag)
      | _ => none
  | .run index answers =>
      worker.runs[index]?.map fun task => worker.run dataPath index task answers

section Note

variable {dataPath : Bytes} {worker : Worker} {download : Download} {answers : RunAnswers}
  {filled : Bool} {host : Host}

@[simp] theorem note_host :
    (worker.note dataPath download answers filled host).host = host := by
  unfold Worker.note
  split <;> rfl

@[simp] theorem note_downloads :
    (worker.note dataPath download answers filled host).downloads = worker.downloads := by
  unfold Worker.note
  split <;> rfl

@[simp] theorem note_runs :
    (worker.note dataPath download answers filled host).runs = worker.runs := by
  unfold Worker.note
  split <;> rfl

@[simp] theorem note_loads :
    (worker.note dataPath download answers filled host).loads = worker.loads := by
  unfold Worker.note
  split <;> rfl

end Note

/-! ## What steps do -/

/-- What only the handler and the end of a download write to the record is the same. -/
structure SameStatus (before after : RunningApp) : Prop where
  running : after.running = before.running
  groupId : after.groupId = before.groupId
  appInfo : after.appInfo = before.appInfo

theorem SameStatus.of_eq {before after : RunningApp} (same : after = before) :
    SameStatus before after := by
  subst same
  exact ⟨rfl, rfl, rfl⟩

/-- What each step does. -/
inductive Transition (dataPath : Bytes) (worker : Worker) : Action → Worker → Prop where
  | waits (storage : Storage) (shouldLoad : Option DownloadInfo) (args : HeadArgs) :
      Transition dataPath worker (.load storage shouldLoad) { worker with handling := some args }
  | loads (storage : Storage) (appInfo : DownloadInfo) (syncArgs optionArgs : Option Bytes)
      (args : HeadArgs) (loads : Loads worker.host.app appInfo) :
      Transition dataPath worker (.load storage (some appInfo))
        { worker.spawnDownload appInfo syncArgs optionArgs with handling := some args }
  | rests (action : Action) (ofHandler : action.ofHandler) :
      Transition dataPath worker action { worker with handling := none }
  | launches (storage : Storage) (appInfo : DownloadInfo) (runArgs optionArgs : Option Bytes)
      (downloaded : worker.host.app.running = .downloaded)
      (isInfo : worker.host.app.appInfo = some appInfo) :
      Transition dataPath worker (.launch storage true)
        ({ worker with handling := none }.spawnRun appInfo runArgs optionArgs)
  | prepares (index : Nat) (answers : DownloadAnswers) (download : Download) (host : Host)
      (phase : DownloadPhase) (found : worker.downloads[index]? = some ⟨download, .prepare⟩)
      (uninterrupted : Uninterrupted dataPath download.appInfo answers)
      (same : host.app = worker.host.app) (isPhase : phase = .sync ∨ phase = .settle false) :
      Transition dataPath worker (.prepare index answers)
        ({ worker with host }.goOn index download (some phase))
  | interrupts (index : Nat) (answers : DownloadAnswers) (download : Download) (host : Host)
      (found : worker.downloads[index]? = some ⟨download, .prepare⟩)
      (interrupted : ¬Uninterrupted dataPath download.appInfo answers)
      (same : host.app = worker.host.app) :
      Transition dataPath worker (.prepare index answers)
        ({ worker with host }.goOn index download none)
  | syncs (index : Nat) (answers : RunAnswers) (download : Download) (filled : Bool) (host : Host)
      (found : worker.downloads[index]? = some ⟨download, .sync⟩)
      (calm : ¬Panics worker.host.app dataPath download.appInfo download.syncArgs answers)
      (isFilled : filled ↔
        Fills worker.host.app dataPath download.appInfo download.syncArgs answers)
      (same : SameStatus worker.host.app host.app)
      (sameIndex : host.app.curIns = worker.host.app.curIns)
      (kept : ¬Prepared download.appInfo download.syncArgs answers → host.app = worker.host.app) :
      Transition dataPath worker (.sync index answers)
        ((worker.note dataPath download answers filled host).goOn index download
          (some (.settle true)))
  | panics (index : Nat) (answers : RunAnswers) (download : Download) (host : Host)
      (found : worker.downloads[index]? = some ⟨download, .sync⟩)
      (panics : Panics worker.host.app dataPath download.appInfo download.syncArgs answers)
      (same : host.app = worker.host.app) :
      Transition dataPath worker (.sync index answers)
        ((worker.note dataPath download answers false host).goOn index download none)
  | settles (index : Nat) (download : Download) (startFlag : Bool)
      (found : worker.downloads[index]? = some ⟨download, .settle startFlag⟩) :
      Transition dataPath worker (.settle index) (worker.settle index download startFlag)
  | runs (index : Nat) (answers : RunAnswers) (task : RunTask) (host : Host)
      (found : worker.runs[index]? = some task) (same : SameStatus worker.host.app host.app)
      (kept : ¬Prepared task.appInfo task.runArgs answers → host.app = worker.host.app) :
      Transition dataPath worker (.run index answers)
        { worker with host, runs := worker.runs.eraseIdx index }

section Transitions

variable {dataPath : Bytes} {worker after : Worker} {action : Action}

theorem transition_load (storage : Storage) (shouldLoad : Option DownloadInfo) :
    Transition dataPath worker (.load storage shouldLoad) (worker.load storage shouldLoad) := by
  unfold Worker.load
  cases shouldLoad with
  | none => exact .waits storage none _
  | some appInfo =>
      dsimp only
      split
      · exact .loads storage appInfo _ _ _ (by assumption)
      · exact .waits storage (some appInfo) _

theorem transition_launch (storage : Storage) (shouldRun : Bool) (args : HeadArgs) :
    Transition dataPath worker (.launch storage shouldRun)
      (worker.launch storage shouldRun args) := by
  unfold Worker.launch
  dsimp only
  split
  · subst shouldRun
    split
    · split
      · exact .launches storage _ _ _ (by assumption) (by assumption)
      · exact .rests _ rfl
    · exact .rests _ rfl
  · exact .rests _ rfl

theorem transition_prepare {index : Nat} {download : Download} (answers : DownloadAnswers)
    (found : worker.downloads[index]? = some ⟨download, .prepare⟩) :
    Transition dataPath worker (.prepare index answers)
      (worker.prepare dataPath index download answers) := by
  unfold Worker.prepare
  rcases ended : prepareDownload dataPath download.appInfo answers worker.host with
    ⟨_ | startFlag, host⟩
  · obtain ⟨interrupted, untouched⟩ := ends_prepareDownload.of_error ended
    exact .interrupts index answers download host found interrupted untouched.app
  · obtain ⟨uninterrupted, untouched⟩ := ends_prepareDownload.of_ok ended
    cases startFlag with
    | true =>
        exact .prepares index answers download host .sync found uninterrupted untouched.app
          (.inl rfl)
    | false =>
        exact .prepares index answers download host _ found uninterrupted untouched.app (.inr rfl)

theorem transition_sync {index : Nat} {download : Download} (answers : RunAnswers)
    (found : worker.downloads[index]? = some ⟨download, .sync⟩) :
    Transition dataPath worker (.sync index answers)
      (worker.sync dataPath index download answers) := by
  unfold Worker.sync
  split
  · rename_i result host ended
    obtain ⟨calm, cases⟩ := ends_syncDownloaded.of_ok ended
    rcases cases with ⟨isSome, fills, isApp⟩ | ⟨isNone, notFills, sameApp⟩
    · apply Transition.syncs index answers download _ host found calm (iff_of_true isSome fills)
      · rw [isApp]
        constructor <;> simp [RunningApp.filled]
      · rw [isApp]
        simp [RunningApp.filled]
      · exact fun notPrepared => absurd fills.prepared notPrepared
    · apply Transition.syncs index answers download _ host found calm
      · simp [isNone, notFills]
      · exact .of_eq sameApp
      · rw [sameApp]
      · exact fun _ => sameApp
  · rename_i ended
    obtain ⟨panics, sameApp⟩ := ends_syncDownloaded.of_error ended
    exact .panics index answers download _ found panics sameApp

theorem transition_run {index : Nat} {task : RunTask} (answers : RunAnswers)
    (found : worker.runs[index]? = some task) :
    Transition dataPath worker (.run index answers)
      (worker.run dataPath index task answers) := by
  unfold Worker.run
  rcases ended : processRunTask dataPath task.appInfo task.runArgs task.optionArgs .run answers
    worker.host with ⟨_ | _, host⟩
  · obtain ⟨_, _, sameApp, _⟩ := ends_processRunTask.of_error ended
    exact .runs index answers task host found (.of_eq sameApp) fun _ => sameApp
  · obtain ⟨passes, isApp, _⟩ := ends_processRunTask.of_ok ended
    apply Transition.runs index answers task host found
    · rw [isApp]
      constructor <;> simp [RunningApp.ran, RunningApp.replaced] <;> split <;> simp
    · exact fun notPrepared => absurd passes.1.prepared notPrepared

/-- Every step is a transition. -/
theorem transition_of_step (taken : workerStep dataPath worker action = some after) :
    Transition dataPath worker action after := by
  cases action with
  | load storage shouldLoad =>
      simp only [workerStep] at taken
      split at taken
      · cases taken
        exact transition_load storage shouldLoad
      · cases taken
  | launch storage shouldRun =>
      obtain ⟨args, _, rfl⟩ := Option.map_eq_some_iff.mp taken
      exact transition_launch storage shouldRun args
  | abandon =>
      obtain ⟨_, _, rfl⟩ := Option.map_eq_some_iff.mp taken
      exact .rests .abandon rfl
  | prepare index answers =>
      simp only [workerStep] at taken
      split at taken
      · cases taken
        exact transition_prepare answers (by assumption)
      · cases taken
  | sync index answers =>
      simp only [workerStep] at taken
      split at taken
      · cases taken
        exact transition_sync answers (by assumption)
      · cases taken
  | settle index =>
      simp only [workerStep] at taken
      split at taken
      · cases taken
        exact .settles index _ _ (by assumption)
      · cases taken
  | run index answers =>
      obtain ⟨task, found, rfl⟩ := Option.map_eq_some_iff.mp taken
      exact transition_run answers found

end Transitions

/-! ## One download in turn -/

section InTurn

variable {dataPath : Bytes} {worker middle : Worker} {action : Action} {download : Download}
  {host : Host}

/-- The steps of the only download, one after the other, lead to the given state. -/
def LeadsTo (dataPath : Bytes) (worker : Worker) (host : Host) : Prop :=
  ∃ actions after, run (workerStep dataPath) worker actions = some after ∧
    after.downloads = [] ∧ after.host = host

theorem leadsTo_of_ended (ended : worker.downloads = []) : LeadsTo dataPath worker worker.host :=
  ⟨[], worker, rfl, ended, rfl⟩

theorem LeadsTo.step (leadsTo : LeadsTo dataPath middle host)
    (taken : workerStep dataPath worker action = some middle) : LeadsTo dataPath worker host := by
  obtain ⟨actions, after, others, ended, isHost⟩ := leadsTo
  refine ⟨action :: actions, after, ?_, ended, isHost⟩
  rw [run, taken]
  exact others

theorem leadsTo_settle {startFlag : Bool}
    (only : worker.downloads = [⟨download, .settle startFlag⟩]) :
    LeadsTo dataPath worker
      (settleDownload download.appInfo download.newGroup startFlag worker.host).2 := by
  have taken : workerStep dataPath worker (.settle 0) =
      some (worker.settle 0 download startFlag) := by
    simp [workerStep, only]
  have ended : (worker.settle 0 download startFlag).downloads = [] := by
    simp [Worker.settle, Worker.goOn, only]
  exact (leadsTo_of_ended ended).step taken

theorem leadsTo_sync (only : worker.downloads = [⟨download, .sync⟩]) (answers : RunAnswers) :
    LeadsTo dataPath worker
      ((do
        let _ ← syncDownloaded dataPath download.appInfo download.syncArgs download.optionArgs
          answers
        settleDownload download.appInfo download.newGroup true : NodeM Unit) worker.host).2 := by
  have taken : workerStep dataPath worker (.sync 0 answers) =
      some (worker.sync dataPath 0 download answers) := by
    simp [workerStep, only]
  refine LeadsTo.step ?_ taken
  change LeadsTo dataPath _ (Exec.bind _ _ worker.host).2
  rw [Worker.sync, Exec.bind]
  rcases syncDownloaded dataPath download.appInfo download.syncArgs download.optionArgs answers
    worker.host with ⟨_ | result, host⟩
  · let ended := (worker.note dataPath download answers false host).goOn 0 download none
    have isHost : ended.host = host := note_host
    have none : ended.downloads = [] := by
      simp [ended, Worker.goOn, only]
    have leads : LeadsTo dataPath ended ended.host := leadsTo_of_ended none
    rw [isHost] at leads
    exact leads
  · let synced := (worker.note dataPath download answers result.isSome host).goOn 0 download
      (some (.settle true))
    have isHost : synced.host = host := note_host
    have next : synced.downloads = [⟨download, .settle true⟩] := by
      simp [synced, Worker.goOn, only]
    have leads : LeadsTo dataPath synced
        (settleDownload download.appInfo download.newGroup true synced.host).2 :=
      leadsTo_settle next
    rw [isHost] at leads
    exact leads

/-- A download whose sections nothing comes between is `process_download_task`. -/
theorem leadsTo_processDownloadTask (only : worker.downloads = [⟨download, .prepare⟩])
    (answers : DownloadAnswers) (startAnswers : RunAnswers) :
    LeadsTo dataPath worker (processDownloadTask dataPath download.appInfo download.newGroup
      download.syncArgs download.optionArgs answers startAnswers worker.host).2 := by
  have taken : workerStep dataPath worker (.prepare 0 answers) =
      some (worker.prepare dataPath 0 download answers) := by
    simp [workerStep, only]
  refine LeadsTo.step ?_ taken
  change LeadsTo dataPath _ (Exec.bind _ _ worker.host).2
  rw [Worker.prepare, Exec.bind]
  rcases prepareDownload dataPath download.appInfo answers worker.host with ⟨_ | startFlag, host⟩
  · let ended := { worker with host }.goOn 0 download none
    have none : ended.downloads = [] := by
      simp [ended, Worker.goOn, only]
    exact leadsTo_of_ended none
  · cases startFlag with
    | true =>
        let prepared := { worker with host }.goOn 0 download (some .sync)
        have next : prepared.downloads = [⟨download, .sync⟩] := by
          simp [prepared, Worker.goOn, only]
        exact leadsTo_sync next startAnswers
    | false =>
        let prepared := { worker with host }.goOn 0 download (some (.settle false))
        have next : prepared.downloads = [⟨download, .settle false⟩] := by
          simp [prepared, Worker.goOn, only]
        exact leadsTo_settle next

end InTurn

end Popsicle.Node
