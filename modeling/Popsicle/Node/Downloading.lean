import Popsicle.Node.Worker

/-!
# Downloads end

The status of the node is `Downloading` while a download is under way and no other one is
spawned.  A download that ends early, with an error that nobody looks at or with a panic,
leaves the status as it is.
-/

namespace Popsicle.Node

open Foundation Exec

variable {dataPath : Bytes} {worker after : Worker} {action : Action} {index : Nat}
  {download : Download} {answers : RunAnswers} {filled : Bool} {host : Host}

/-! ## One download at a time -/

/-- At most one download is under way, and only while the status says so. -/
structure Single (worker : Worker) : Prop where
  single : worker.downloads.length ≤ 1
  idle : worker.host.app.running ≠ .downloading → worker.downloads = []
  ready : worker.host.app.running = .downloaded → worker.host.app.appInfo.isSome
  used : worker.host.app.running ≠ .running

theorem Single.only (single : Single worker) {task : DownloadTask}
    (found : worker.downloads[index]? = some task) :
    index = 0 ∧ worker.downloads = [task] ∧ worker.host.app.running = .downloading := by
  have inside := (List.getElem?_eq_some_iff.mp found).1
  have isFirst : index = 0 := by
    have atMost := single.single
    omega
  subst isFirst
  refine ⟨rfl, ?_, ?_⟩
  · cases isList : worker.downloads with
    | nil => simp [isList] at inside
    | cons first rest =>
        have isEmpty : rest = [] := by
          have atMost := single.single
          rw [isList, List.length_cons] at atMost
          exact List.eq_nil_of_length_eq_zero (by omega)
        rw [isList] at found
        cases found
        rw [isEmpty]
  · by_contra isOther
    rw [single.idle isOther] at inside
    cases inside

theorem Single.free_of_loads (single : Single worker) {appInfo : DownloadInfo}
    (loads : Loads worker.host.app appInfo) : worker.downloads = [] := by
  apply single.idle
  rw [loads.2]
  decide

/-- Every step keeps downloads apart. -/
theorem Single.transition (single : Single worker)
    (transition : Transition dataPath worker action after) : Single after := by
  cases transition with
  | waits => exact ⟨single.single, single.idle, single.ready, single.used⟩
  | loads storage appInfo syncArgs optionArgs args loads =>
      constructor
      · simp [Worker.spawnDownload, single.free_of_loads loads]
      · intro isOther
        exact absurd rfl isOther
      · intro isReady
        cases isReady
      · rintro ⟨⟩
  | rests => exact ⟨single.single, single.idle, single.ready, single.used⟩
  | launches storage appInfo runArgs optionArgs downloaded isInfo =>
      constructor
      · exact single.single
      · intro _
        apply single.idle
        rw [downloaded]
        decide
      · intro isReady
        cases isReady
      · rintro ⟨⟩
  | prepares index answers download host phase found uninterrupted same isPhase =>
      obtain ⟨rfl, only, isRunning⟩ := single.only found
      constructor <;> simp [Worker.goOn, only, same, isRunning]
  | interrupts index answers download host found interrupted same =>
      obtain ⟨rfl, only, isRunning⟩ := single.only found
      constructor <;> simp [Worker.goOn, only, same, isRunning]
  | syncs index answers download filled host found calm isFilled same sameIndex kept =>
      obtain ⟨rfl, only, isRunning⟩ := single.only found
      constructor <;> simp [Worker.goOn, only, same.running, isRunning]
  | panics index answers download host found panics same =>
      obtain ⟨rfl, only, isRunning⟩ := single.only found
      constructor <;> simp [Worker.goOn, only, same, isRunning]
  | settles index download startFlag found =>
      obtain ⟨rfl, only, _⟩ := single.only found
      cases startFlag <;> constructor <;>
        simp [Worker.settle, Worker.goOn, settleDownload, onApp, write, only]
  | runs index answers task host found same kept =>
      refine ⟨single.single, ?_, ?_, ?_⟩
      · rw [same.running]
        exact single.idle
      · rw [same.running, same.appInfo]
        exact single.ready
      · rw [same.running]
        exact single.used

theorem single_start (machine : Machine) : Single (.start machine) :=
  ⟨Nat.zero_le 1, fun _ => rfl, nofun, nofun⟩

/-! ## Stuck -/

/-- The step does not end a download early. -/
def Undisturbed (dataPath : Bytes) (worker : Worker) : Action → Prop
  | .prepare index answers => ∀ download,
      worker.downloads[index]? = some ⟨download, .prepare⟩ →
        Uninterrupted dataPath download.appInfo answers
  | .sync index answers => ∀ download,
      worker.downloads[index]? = some ⟨download, .sync⟩ →
        ¬Panics worker.host.app dataPath download.appInfo download.syncArgs answers
  | _ => True

/-- The handler can come to spawn a download of the application. -/
def Loadable (dataPath : Bytes) (worker : Worker) (appInfo : DownloadInfo) : Prop :=
  ∃ actions after, Foundation.run (workerStep dataPath) worker actions = some after ∧
    (∀ action ∈ actions, action.ofHandler) ∧
      ∃ task ∈ after.downloads, task.download.appInfo = appInfo

/-- A download is under way while the status says so, and one can be spawned for every
change of the group while none is. -/
structure Unstuck (dataPath : Bytes) (worker : Worker) : Prop where
  single : worker.downloads.length ≤ 1
  settled : worker.downloads = [] →
    worker.host.app.running = .downloaded ∨ worker.host.app.running = .pending
  startable : worker.downloads = [] → ∀ appInfo : DownloadInfo,
    worker.host.app.groupId ≠ appInfo.group → Loadable dataPath worker appInfo

/-- While the status is `Downloading`, a download is under way. -/
structure Alive (worker : Worker) : Prop extends Single worker where
  alive : worker.host.app.running = .downloading → worker.downloads ≠ []

/-- An undisturbed step leaves no status without its download. -/
theorem Alive.transition (alive : Alive worker) (undisturbed : Undisturbed dataPath worker action)
    (transition : Transition dataPath worker action after) : Alive after := by
  refine ⟨alive.toSingle.transition transition, ?_⟩
  cases transition with
  | waits => exact alive.alive
  | loads storage appInfo syncArgs optionArgs args loads =>
      intro _
      simp [Worker.spawnDownload]
  | rests => exact alive.alive
  | launches => rintro ⟨⟩
  | prepares index answers download host phase found uninterrupted same isPhase =>
      obtain ⟨rfl, only, _⟩ := alive.only found
      simp [Worker.goOn, only]
  | interrupts index answers download host found interrupted same =>
      exact absurd (undisturbed download found) interrupted
  | syncs index answers download filled host found calm isFilled same sameIndex kept =>
      obtain ⟨rfl, only, _⟩ := alive.only found
      simp [Worker.goOn, only]
  | panics index answers download host found panics same =>
      exact absurd panics (undisturbed download found)
  | settles index download startFlag found =>
      cases startFlag <;> simp [Worker.settle, Worker.goOn, settleDownload, onApp, write]
  | runs index answers task host found same kept =>
      rw [same.running]
      exact alive.alive

theorem undisturbed_of_refused (refused : workerStep dataPath worker action = none) :
    Undisturbed dataPath worker action := by
  cases action with
  | prepare index answers | sync index answers =>
      intro download found
      simp [workerStep, found] at refused
  | load | launch | abandon | settle | run => trivial

theorem Single.disturbed (single : Single worker)
    (disturbed : ¬Undisturbed dataPath worker action)
    (transition : Transition dataPath worker action after) :
    after.downloads = [] ∧ after.host.app.running = .downloading := by
  cases transition with
  | prepares index answers download host phase found uninterrupted same isPhase =>
      refine absurd (fun other alsoFound => ?_) disturbed
      cases found.symm.trans alsoFound
      exact uninterrupted
  | interrupts index answers download host found interrupted same =>
      obtain ⟨rfl, only, isRunning⟩ := single.only found
      simp [Worker.goOn, only, same, isRunning]
  | syncs index answers download filled host found calm isFilled same sameIndex kept =>
      refine absurd (fun other alsoFound => ?_) disturbed
      cases found.symm.trans alsoFound
      exact calm
  | panics index answers download host found panics same =>
      obtain ⟨rfl, only, isRunning⟩ := single.only found
      simp [Worker.goOn, only, same, isRunning]
  | rests action ofHandler =>
      cases action with
      | load | launch | abandon => exact absurd trivial disturbed
      | prepare | sync | settle | run => cases ofHandler
  | _ => exact absurd trivial disturbed

section Loadable

variable {appInfo : DownloadInfo}

theorem Loadable.step {middle : Worker} (loadable : Loadable dataPath middle appInfo)
    (ofHandler : action.ofHandler) (taken : workerStep dataPath worker action = some middle) :
    Loadable dataPath worker appInfo := by
  obtain ⟨actions, after, others, handlers, spawned⟩ := loadable
  refine ⟨action :: actions, after, ?_, ?_, spawned⟩
  · rw [Foundation.run, taken]
    exact others
  · intro other member
    rcases List.mem_cons.mp member with rfl | later
    · exact ofHandler
    · exact handlers other later

theorem loadable_of_pending (free : worker.handling = none)
    (pending : worker.host.app.running = .pending)
    (changed : worker.host.app.groupId ≠ appInfo.group) : Loadable dataPath worker appInfo := by
  have loads : Loads worker.host.app appInfo := ⟨changed, pending⟩
  refine ⟨[.load none (some appInfo)], worker.load none (some appInfo), ?_,
    by simp [Action.ofHandler], ?_⟩
  · simp [Foundation.run, workerStep, free]
  · rw [Worker.load]
    simp [loads, Worker.spawnDownload]

/-- A node with an application that is to run runs it and loads the next one. -/
theorem loadable_of_free (free : worker.handling = none)
    (settled : worker.host.app.running = .downloaded ∨ worker.host.app.running = .pending)
    (ready : worker.host.app.running = .downloaded → worker.host.app.appInfo.isSome)
    (changed : worker.host.app.groupId ≠ appInfo.group) : Loadable dataPath worker appInfo := by
  rcases settled with downloaded | pending
  · obtain ⟨old, isOld⟩ := Option.isSome_iff_exists.mp (ready downloaded)
    let args : HeadArgs := { runArgs := none, optionArgs := none }
    let launched := { worker with handling := none }.spawnRun old none none
    have next : Loadable dataPath launched appInfo := loadable_of_pending rfl rfl changed
    have launches : workerStep dataPath { worker with handling := some args }
        (.launch none true) = some launched := by
      simp [workerStep, Worker.launch, isOld, downloaded, launched, argsFor, storedArgs, args]
    have waits : workerStep dataPath worker (.load none none) =
        some { worker with handling := some args } := by
      simp [workerStep, free, Worker.load, storedArgs, args]
    exact (next.step rfl launches).step rfl waits
  · exact loadable_of_pending free pending changed

end Loadable

/-- Where every status has its download, the node is not stuck. -/
theorem Alive.unstuck (alive : Alive worker) : Unstuck dataPath worker := by
  have settled : worker.downloads = [] →
      worker.host.app.running = .downloaded ∨ worker.host.app.running = .pending := by
    intro none
    cases isRunning : worker.host.app.running with
    | pending => exact .inr rfl
    | downloaded => exact .inl rfl
    | downloading => exact absurd none (alive.alive isRunning)
    | running => exact absurd isRunning alive.used
  refine ⟨alive.single, settled, fun none appInfo changed => ?_⟩
  cases isHandling : worker.handling with
  | none => exact loadable_of_free isHandling (settled none) alive.ready changed
  | some args =>
      have next : Loadable dataPath { worker with handling := .none } appInfo :=
        loadable_of_free rfl (settled none) alive.ready changed
      have ends : workerStep dataPath worker (.launch .none false) =
          some { worker with handling := .none } := by
        simp [workerStep, isHandling, Worker.launch]
      exact next.step rfl ends

/-- A node whose status lost its download stays so for ever. -/
theorem stuck_of_reaches {admits : Worker → Action → Prop} {later : Worker}
    (none : worker.downloads = []) (isRunning : worker.host.app.running = .downloading)
    (reaches : Reaches (workerStep dataPath) admits worker later) :
    later.downloads = [] ∧ later.host.app.running = .downloading := by
  let stuck : Worker → Prop := fun worker =>
    worker.downloads = [] ∧ worker.host.app.running = .downloading
  suffices held : stuck later from held
  refine reaches.invariant ⟨none, isRunning⟩ ?_
  rintro worker action after ⟨none, isRunning⟩ _ taken
  cases transition_of_step taken with
  | waits | rests => exact ⟨none, isRunning⟩
  | loads storage appInfo syncArgs optionArgs args loads =>
      rw [loads.2] at isRunning
      cases isRunning
  | launches storage appInfo runArgs optionArgs downloaded =>
      rw [downloaded] at isRunning
      cases isRunning
  | runs index answers task host found same =>
      exact ⟨none, same.running.trans isRunning⟩
  | prepares _ _ _ _ _ found | interrupts _ _ _ _ found | syncs _ _ _ _ _ found
  | panics _ _ _ _ found | settles _ _ _ found =>
      rw [none] at found
      cases found

/-- The node is never stuck in `Downloading` if and only if nothing ends a download early:
every text is one, every command of docker can be run where it is needed, nothing panics,
and a native application that is about to be started can be. -/
theorem unstuck_throughout_iff (dataPath : Bytes) (machine : Machine) (actions : List Action) :
    Throughout (workerStep dataPath) (Unstuck dataPath) (.start machine) actions ↔
      Admitted (workerStep dataPath) (Undisturbed dataPath) (.start machine) actions := by
  have within : ∀ worker, Alive worker → Unstuck dataPath worker := fun _ alive => alive.unstuck
  have initial : Alive (.start machine) := ⟨single_start machine, nofun⟩
  refine throughout_iff_admitted within ?_ ?_ initial actions
  · intro worker action after alive undisturbed taken
    exact alive.transition undisturbed (transition_of_step taken)
  · intro worker action alive unstuck
    by_contra disturbed
    cases taken : workerStep dataPath worker action with
    | none => exact disturbed (undisturbed_of_refused taken)
    | some after =>
        obtain ⟨none, isRunning⟩ := alive.disturbed disturbed (transition_of_step taken)
        rcases (unstuck after taken).settled none with isOther | isOther
        · rw [isRunning] at isOther
          cases isOther
        · rw [isRunning] at isOther
          cases isOther

/-- An application in a docker image, on a node that cannot run docker. -/
theorem not_unstuck_throughout :
    ¬∀ (dataPath : Bytes) (machine : Machine) (actions : List Action),
      Throughout (workerStep dataPath) (Unstuck dataPath) (.start machine) actions := by
  intro unstuck
  let machine : Machine := { spawned := 0, children := [], containers := [] }
  let image : ImageAnswers :=
    { listed := false, filtered := false, filterEnded := false, listEnded := false, output := [] }
  let answers : DownloadAnswers :=
    { image, pull := .success, imageAgain := image, opened := false, digest := none
      fetched := .ok () }
  let loaded := (Worker.start machine).load none (some (plainApp 1 true))
  let download : Download :=
    { ticket := 0, appInfo := plainApp 1 true, newGroup := 1, syncArgs := none, optionArgs := none }
  let stopped := loaded.prepare [47] 0 download answers
  have throughout := unstuck [47] machine [.load none (some (plainApp 1 true)), .prepare 0 answers]
  have stuck : Unstuck [47] stopped := (throughout.2 loaded rfl).2 stopped rfl
  have shown : stopped.downloads.length = 0 ∧ stopped.host.app.running = .downloading := by
    decide +kernel
  rcases stuck.settled (List.eq_nil_of_length_eq_zero shown.1) with isOther | isOther
  · rw [shown.2] at isOther
    cases isOther
  · rw [shown.2] at isOther
    cases isOther

end Popsicle.Node
