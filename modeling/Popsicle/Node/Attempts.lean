import Popsicle.Foundation.Tally
import Popsicle.Node.Downloading

/-!
# Attempts

The node tries to download the application of its group with each new head, until one attempt
succeeds.  Attempts, successes and runs are counted here over all orders of steps, next to
how often the chain names another group.
-/

namespace Popsicle.Node

open Foundation Exec

/-! ## What the chain asks for -/

/-- The node, and the group of the application that the chain last named. -/
structure Watch where
  worker : Worker
  asked : Option Nat

/-- The group of the application that a call of the handler is told to load. -/
def Action.asks : Action → Option Nat
  | .load _ shouldLoad => shouldLoad.map (·.group)
  | _ => none

/-- A step of the node, with what the chain names on the way. -/
def watchStep (dataPath : Bytes) (watch : Watch) (action : Action) : Option Watch :=
  (workerStep dataPath watch.worker action).map fun worker =>
    { worker, asked := action.asks.or watch.asked }

/-- The chain names another group than the last time. -/
def switched (before after : Watch) : Nat :=
  if before.asked = after.asked then 0 else 1

/-! ## What is counted -/

/-- Downloads that are spawned. -/
def begun (before after : Watch) : Nat :=
  after.worker.downloads.length - before.worker.downloads.length

/-- Downloads that end and leave an application that is to run. -/
def succeeded (before after : Watch) : Nat :=
  if after.worker.host.app.running = .downloaded then
    before.worker.downloads.length - after.worker.downloads.length
  else 0

/-- Downloads that end otherwise: with nothing to run, with an error or in a panic. -/
def failed (before after : Watch) : Nat :=
  if after.worker.host.app.running = .downloaded then 0
  else before.worker.downloads.length - after.worker.downloads.length

/-- Runs of applications that are spawned. -/
def launched (before after : Watch) : Nat :=
  after.worker.runs.length - before.worker.runs.length

/-! ## What is saved -/

/-- An application waits to run. -/
def Watch.waiting (watch : Watch) : Nat :=
  if watch.worker.host.app.running = .downloaded then 1 else 0

/-- The group that the download under way is for, or the one of the node. -/
def Worker.aim (worker : Worker) : Nat :=
  match worker.downloads with
  | task :: _ => task.download.newGroup
  | [] => worker.host.app.groupId

/-- The node is not yet on its way to the group that the chain named. -/
def Watch.due (watch : Watch) : Nat :=
  match watch.asked with
  | some group => if group = watch.worker.aim then 0 else 1
  | none => 0

theorem due_le_one (watch : Watch) : watch.due ≤ 1 := by
  unfold Watch.due
  split
  · split <;> decide
  · decide

section Steps

variable {dataPath : Bytes} {worker after : Worker} {action : Action} {asked : Option Nat}

/-- What is still to do grows only where the chain names another group, while the node does
not change its aim. -/
theorem due_le_of_aim (sameAim : after.aim = worker.aim) (asked asks : Option Nat) :
    Watch.due ⟨after, asks.or asked⟩ ≤
      switched ⟨worker, asked⟩ ⟨after, asks.or asked⟩ + Watch.due ⟨worker, asked⟩ := by
  by_cases same : asked = asks.or asked
  · rw [← same]
    simp [Watch.due, sameAim]
  · have atMost := due_le_one ⟨after, asks.or asked⟩
    simp only [switched, same, if_false]
    omega

theorem Single.pays_launched (single : Single worker)
    (transition : Transition dataPath worker action after) :
    launched ⟨worker, asked⟩ ⟨after, action.asks.or asked⟩ +
        Watch.waiting ⟨after, action.asks.or asked⟩ ≤
      succeeded ⟨worker, asked⟩ ⟨after, action.asks.or asked⟩ +
        Watch.waiting ⟨worker, asked⟩ := by
  cases transition with
  | waits | rests => simp [launched, Watch.waiting]
  | loads storage appInfo syncArgs optionArgs args loads =>
      simp [launched, Watch.waiting, Worker.spawnDownload]
  | launches storage appInfo runArgs optionArgs downloaded isInfo =>
      simp [launched, Watch.waiting, Worker.spawnRun, downloaded]
  | prepares index answers download host phase found uninterrupted same isPhase =>
      simp [launched, Watch.waiting, Worker.goOn, same]
  | interrupts index answers download host found interrupted same =>
      simp [launched, Watch.waiting, Worker.goOn, same]
  | syncs index answers download filled host found calm isFilled same =>
      simp [launched, Watch.waiting, Worker.goOn, same.running]
  | panics index answers download host found panics same =>
      simp [launched, Watch.waiting, Worker.goOn, same]
  | settles index download startFlag found =>
      obtain ⟨rfl, only, isRunning⟩ := single.only found
      cases startFlag <;>
        simp [launched, succeeded, Watch.waiting, Worker.settle, Worker.goOn, settleDownload,
          onApp, write, only]
  | runs index answers task host found same =>
      have fewer : worker.runs.length - 1 - worker.runs.length = 0 := by omega
      have inside := (List.getElem?_eq_some_iff.mp found).1
      simp [launched, Watch.waiting, same.running, List.length_eraseIdx, inside, fewer]

/-- Every beginning is paid for by a failure, or by the name of another group. -/
theorem Single.pays_begun (single : Single worker)
    (transition : Transition dataPath worker action after) :
    begun ⟨worker, asked⟩ ⟨after, action.asks.or asked⟩ +
        Watch.due ⟨after, action.asks.or asked⟩ ≤
      (failed ⟨worker, asked⟩ ⟨after, action.asks.or asked⟩ +
        switched ⟨worker, asked⟩ ⟨after, action.asks.or asked⟩) + Watch.due ⟨worker, asked⟩ := by
  have fails (isFirst : worker.downloads.length = 1) (ended : after.downloads = [])
      (isOther : after.host.app.running ≠ .downloaded) :
      begun ⟨worker, asked⟩ ⟨after, action.asks.or asked⟩ +
          Watch.due ⟨after, action.asks.or asked⟩ ≤
        failed ⟨worker, asked⟩ ⟨after, action.asks.or asked⟩ +
          switched ⟨worker, asked⟩ ⟨after, action.asks.or asked⟩ + Watch.due ⟨worker, asked⟩ := by
    have atMost := due_le_one ⟨after, action.asks.or asked⟩
    simp only [begun, failed, isFirst, ended, isOther, List.length_nil, if_false]
    omega
  have rests (sameAim : after.aim = worker.aim)
      (noMore : after.downloads.length ≤ worker.downloads.length) :
      begun ⟨worker, asked⟩ ⟨after, action.asks.or asked⟩ +
          Watch.due ⟨after, action.asks.or asked⟩ ≤
        failed ⟨worker, asked⟩ ⟨after, action.asks.or asked⟩ +
          switched ⟨worker, asked⟩ ⟨after, action.asks.or asked⟩ + Watch.due ⟨worker, asked⟩ := by
    have due := due_le_of_aim sameAim asked action.asks
    simp only [begun] at due ⊢
    omega
  cases transition with
  | waits | rests => exact rests rfl le_rfl
  | loads storage appInfo syncArgs optionArgs args loads =>
      have free := single.free_of_loads loads
      by_cases same : asked = some appInfo.group
      · simp [begun, Watch.due, Worker.spawnDownload, Worker.aim, Action.asks, free, same,
          loads.1.symm]
      · simp only [begun, switched, Watch.due, Worker.spawnDownload, Worker.aim, Action.asks,
          free, same, Option.map_some, Option.some_or, if_false, if_true, List.nil_append,
          List.length_singleton, List.length_nil]
        omega
  | launches storage appInfo runArgs optionArgs downloaded isInfo => exact rests rfl le_rfl
  | prepares index answers download host phase found uninterrupted same isPhase =>
      obtain ⟨rfl, only, isRunning⟩ := single.only found
      apply rests
      · simp [Worker.aim, Worker.goOn, only]
      · simp [Worker.goOn]
  | interrupts index answers download host found interrupted same =>
      obtain ⟨rfl, only, isRunning⟩ := single.only found
      apply fails
      · simp [only]
      · simp [Worker.goOn, only]
      · simp [Worker.goOn, same, isRunning]
  | syncs index answers download filled host found calm isFilled same =>
      obtain ⟨rfl, only, isRunning⟩ := single.only found
      apply rests
      · simp [Worker.aim, Worker.goOn, only]
      · simp [Worker.goOn]
  | panics index answers download host found panics same =>
      obtain ⟨rfl, only, isRunning⟩ := single.only found
      apply fails
      · simp [only]
      · simp [Worker.goOn, only]
      · simp [Worker.goOn, same, isRunning]
  | settles index download startFlag found =>
      obtain ⟨rfl, only, isRunning⟩ := single.only found
      cases startFlag with
      | true =>
          apply rests
          · simp [Worker.aim, Worker.settle, Worker.goOn, settleDownload, onApp, write, only]
          · simp [Worker.settle, Worker.goOn, only]
      | false =>
          apply fails
          · simp [only]
          · simp [Worker.settle, Worker.goOn, only]
          · simp [Worker.settle, Worker.goOn, settleDownload, onApp, write]
  | runs index answers task host found same =>
      apply rests
      · simp [Worker.aim, same.groupId]
      · exact le_rfl

end Steps

/-! ## Over a run -/

section Runs

variable {dataPath : Bytes} {watch after : Watch} {action : Action}

theorem watchStep_eq_some (taken : watchStep dataPath watch action = some after) :
    Transition dataPath watch.worker action after.worker ∧
      after = ⟨after.worker, action.asks.or watch.asked⟩ := by
  obtain ⟨worker, stepped, rfl⟩ := Option.map_eq_some_iff.mp taken
  exact ⟨transition_of_step stepped, rfl⟩

theorem Single.watchStep (single : Single watch.worker)
    (taken : watchStep dataPath watch action = some after) : Single after.worker :=
  single.transition (watchStep_eq_some taken).1

variable (dataPath : Bytes) (machine : Machine) (actions : List Action)

/-- How much of something happens while the node takes the steps. -/
def total (weight : Watch → Watch → Nat) : Nat :=
  tally (watchStep dataPath) weight ⟨.start machine, none⟩ actions

/-- Over every run of the node and all orders of its steps: no more runs are spawned than
downloads succeeded, all but the last download ended, and a download is only begun after one
that failed, or for another group than the chain named before. -/
theorem attempts_bounded :
    total dataPath machine actions launched ≤ total dataPath machine actions succeeded ∧
    total dataPath machine actions succeeded + total dataPath machine actions failed ≤
      total dataPath machine actions begun ∧
    total dataPath machine actions begun ≤
      total dataPath machine actions succeeded + total dataPath machine actions failed + 1 ∧
    total dataPath machine actions begun ≤
      total dataPath machine actions failed + total dataPath machine actions switched := by
  have initial : Single (Watch.mk (.start machine) none).worker := single_start machine
  have keeps : ∀ (watch : Watch) action (after : Watch), Single watch.worker →
      Node.watchStep dataPath watch action = some after → Single after.worker :=
    fun _ _ _ single taken => single.watchStep taken
  refine ⟨?_, ?_, ?_, ?_⟩
  · refine tally_le Watch.waiting keeps ?_ initial actions
    intro watch action after single taken
    obtain ⟨transition, isAfter⟩ := watchStep_eq_some taken
    rw [isAfter]
    exact single.pays_launched transition
  · rw [total, total, ← tally_add]
    refine tally_le (fun watch => watch.worker.downloads.length) keeps ?_ initial actions
    intro watch action after single taken
    simp only [succeeded, failed, begun]
    split <;> omega
  · rw [total, total, total, ← tally_add]
    refine tally_le (fun watch => 1 - watch.worker.downloads.length) keeps ?_ initial
      actions
    intro watch action after single taken
    have atMost := (single.watchStep taken).single
    simp only [succeeded, failed, begun]
    split <;> omega
  · rw [total, total, total, ← tally_add]
    refine tally_le Watch.due keeps ?_ initial actions
    intro watch action after single taken
    obtain ⟨transition, isAfter⟩ := watchStep_eq_some taken
    rw [isAfter]
    exact single.pays_begun transition

end Runs

end Popsicle.Node
