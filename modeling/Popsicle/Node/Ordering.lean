import Popsicle.Node.Downloading

/-!
# Runs act on what was started for them

The handler spawns a run and goes on: the status is `Pending` again before the run takes the
lock.  What happens in between is told by the tickets of the downloads: a download gives its
ticket to the run, and the sections are written down under it.
-/

namespace Popsicle.Node

open Foundation Exec

variable {dataPath : Bytes} {worker after : Worker} {action : Action} {ticket : Nat}

/-! ## Tickets -/

/-- The ticket of the download that is under way, or of the application that is ready. -/
def Current (worker : Worker) (ticket : Nat) : Prop :=
  (∃ task ∈ worker.downloads, task.download.ticket = ticket) ∨
    worker.host.app.running = .downloaded ∧ worker.ready = ticket

/-- Tickets are given to one download, which gives it to one run. -/
structure Ticketed (worker : Worker) : Prop extends Single worker where
  latest : ∀ ticket, Current worker ticket → ticket + 1 = worker.loads
  known : ∀ task ∈ worker.runs, task.ticket < worker.loads ∧ ¬Current worker task.ticket
  distinct : (worker.runs.map (·.ticket)).Nodup

theorem Single.current_transition (single : Single worker)
    (transition : Transition dataPath worker action after) (current : Current after ticket) :
    Current worker ticket ∧ after.loads = worker.loads ∨
      ticket = worker.loads ∧ after.loads = worker.loads + 1 := by
  cases transition with
  | waits | rests => exact .inl ⟨current, rfl⟩
  | loads storage appInfo syncArgs optionArgs args loads =>
      have none := single.free_of_loads loads
      rcases current with ⟨task, member, isTicket⟩ | ⟨isReady, _⟩
      · simp only [Worker.spawnDownload, none, List.nil_append, List.mem_singleton] at member
        rw [member] at isTicket
        exact .inr ⟨isTicket.symm, rfl⟩
      · cases isReady
  | launches storage appInfo runArgs optionArgs downloaded isInfo =>
      rcases current with found | ⟨isReady, _⟩
      · exact .inl ⟨.inl found, rfl⟩
      · cases isReady
  | prepares index answers download host phase found uninterrupted same isPhase =>
      obtain ⟨rfl, only, isRunning⟩ := single.only found
      simpa [Current, Worker.goOn, only, same, isRunning] using current
  | interrupts index answers download host found interrupted same =>
      obtain ⟨rfl, only, isRunning⟩ := single.only found
      simp [Current, Worker.goOn, only, same, isRunning] at current
  | syncs index answers download filled host found calm isFilled same sameIndex kept =>
      obtain ⟨rfl, only, isRunning⟩ := single.only found
      simpa [Current, Worker.goOn, only, same.running, isRunning] using current
  | panics index answers download host found panics same =>
      obtain ⟨rfl, only, isRunning⟩ := single.only found
      simp [Current, Worker.goOn, only, same, isRunning] at current
  | settles index download startFlag found =>
      obtain ⟨rfl, only, _⟩ := single.only found
      cases startFlag <;>
        simp [Current, Worker.settle, Worker.goOn, settleDownload, onApp, write, only] at current
      exact .inl ⟨.inl ⟨_, List.mem_of_getElem? found, current⟩, rfl⟩
  | runs index answers task host found same kept =>
      left
      rw [Current, same.running] at current
      exact ⟨current, rfl⟩

/-- The runs that wait after a step waited before it, or a run was spawned for the
application that was ready. -/
theorem runs_transition (transition : Transition dataPath worker action after) :
    after.runs.Sublist worker.runs ∨
      ∃ task, after.runs = worker.runs ++ [task] ∧ Current worker task.ticket ∧
        task.mark = worker.syncs.length ∧ after.host.app.running = .pending ∧
        worker.host.app.running = .downloaded ∧ after.downloads = worker.downloads := by
  cases transition with
  | waits | loads | rests | prepares | interrupts => exact .inl (.refl _)
  | launches storage appInfo runArgs optionArgs downloaded isInfo =>
      exact .inr ⟨_, rfl, .inr ⟨downloaded, rfl⟩, rfl, rfl, downloaded, rfl⟩
  | syncs | panics =>
      left
      simp [Worker.goOn]
  | settles => exact .inl (.refl _)
  | runs index => exact .inl (List.eraseIdx_sublist _ _)

theorem loads_le_transition (transition : Transition dataPath worker action after) :
    worker.loads ≤ after.loads := by
  cases transition with
  | loads => exact Nat.le_succ _
  | syncs | panics => simp [Worker.goOn]
  | waits | rests | launches | prepares | interrupts | settles | runs => exact le_rfl

/-- Every step keeps the tickets apart. -/
theorem Ticketed.transition (ticketed : Ticketed worker)
    (transition : Transition dataPath worker action after) : Ticketed after := by
  have same : ∀ {ticket}, ticket < worker.loads → Current after ticket → Current worker ticket := by
    intro ticket old current
    rcases ticketed.current_transition transition current with ⟨before, _⟩ | ⟨isNew, _⟩
    · exact before
    · exact absurd isNew old.ne
  have later := loads_le_transition transition
  refine ⟨ticketed.toSingle.transition transition, ?_, ?_, ?_⟩
  · intro ticket current
    rcases ticketed.current_transition transition current with ⟨before, kept⟩ | ⟨isNew, grows⟩
    · rw [kept]
      exact ticketed.latest ticket before
    · rw [isNew, grows]
  · intro task member
    have old : task ∈ worker.runs → task.ticket < after.loads ∧ ¬Current after task.ticket := by
      intro waited
      have ⟨known, apart⟩ := ticketed.known task waited
      exact ⟨known.trans_le later, fun current => apart (same known current)⟩
    rcases runs_transition transition with fewer | ⟨new, isRuns, current, _, pending, ready, kept⟩
    · exact old (fewer.subset member)
    · rw [isRuns, List.mem_append, List.mem_singleton] at member
      rcases member with waited | rfl
      · exact old waited
      · have isLatest := ticketed.latest _ current
        refine ⟨by omega, ?_⟩
        rintro (⟨other, found, _⟩ | ⟨isReady, _⟩)
        · rw [kept, ticketed.idle (by rw [ready]; decide)] at found
          cases found
        · rw [pending] at isReady
          cases isReady
  · rcases runs_transition transition with fewer | ⟨new, isRuns, current, _⟩
    · exact ticketed.distinct.sublist (fewer.map _)
    · rw [isRuns, List.map_append, List.nodup_append]
      refine ⟨ticketed.distinct, by simp, ?_⟩
      intro old isOld other isOther
      obtain ⟨task, member, rfl⟩ := List.mem_map.mp isOld
      simp only [List.map_cons, List.map_nil, List.mem_singleton] at isOther
      rintro rfl
      exact (ticketed.known task member).2 (isOther ▸ current)

/-! ## What is written down -/

/-- The download with the ticket has not started its application yet. -/
def Unsynced (worker : Worker) (ticket : Nat) : Prop :=
  ∃ task ∈ worker.downloads, (task.phase = .prepare ∨ task.phase = .sync) ∧
    task.download.ticket = ticket

/-- A start is written down by the step that makes it. -/
structure Notes (worker after : Worker) (ticket : Nat) (possible : Bool) : Prop where
  unsynced : Unsynced worker ticket
  syncs : after.syncs =
    { ticket, index := worker.host.app.curIns, possible, filled := possible
      slot := after.host.app.current } :: worker.syncs
  curIns : after.host.app.curIns = worker.host.app.curIns
  runs : after.runs = worker.runs

/-- What a section under the lock that starts an application does with the note of it. -/
theorem notes_or_keeps {index : Nat} {download : Download} {answers : RunAnswers} {filled : Bool}
    {host : Host} (phase : Option DownloadPhase)
    (found : worker.downloads[index]? = some ⟨download, .sync⟩)
    (isFilled : filled ↔
      Fills worker.host.app dataPath download.appInfo download.syncArgs answers)
    (sameIndex : host.app.curIns = worker.host.app.curIns)
    (kept : ¬Prepared download.appInfo download.syncArgs answers →
      host.app = worker.host.app) :
    let after := (worker.note dataPath download answers filled host).goOn index download phase
    (after.syncs = worker.syncs ∧ after.host.app = worker.host.app) ∨
      Notes worker after download.ticket filled := by
  intro after
  have isHost : after.host = host := by
    cases phase <;> exact note_host
  have isSyncs : after.syncs = (worker.note dataPath download answers filled host).syncs := by
    cases phase <;> rfl
  have isRuns : after.runs = worker.runs := by
    cases phase <;> exact note_runs
  by_cases prepared : Prepared download.appInfo download.syncArgs answers
  · right
    have isPossible : decide (Stoppable worker.host.app.current answers.oldStopped ∧
        Startable dataPath download.appInfo answers) = filled := by
      rw [Bool.eq_iff_iff, decide_eq_true_iff, isFilled]
      exact ⟨fun ⟨stoppable, startable⟩ => ⟨prepared, stoppable, startable⟩,
        fun fills => ⟨fills.stoppable, fills.startable⟩⟩
    refine ⟨⟨_, List.mem_of_getElem? found, .inr rfl, rfl⟩, ?_, isHost ▸ sameIndex, isRuns⟩
    rw [isSyncs, Worker.note, if_pos prepared, isPossible, isHost, RunningApp.current, sameIndex]
  · left
    rw [isSyncs, Worker.note, if_neg prepared, isHost]
    exact ⟨rfl, kept prepared⟩

/-- What a step does to the instances: nothing, it writes down a start, or it is a run that
gets to the lock. -/
theorem slots_transition (transition : Transition dataPath worker action after) :
    (after.syncs = worker.syncs ∧ after.host.app.curIns = worker.host.app.curIns ∧
        after.host.app.current = worker.host.app.current) ∨
      (∃ ticket possible, Notes worker after ticket possible) ∨
      ∃ index answers task, action = .run index answers ∧ worker.runs[index]? = some task ∧
        Prepared task.appInfo task.runArgs answers ∧ after.syncs = worker.syncs ∧
        after.runs = worker.runs.eraseIdx index := by
  cases transition with
  | waits | loads | rests | launches => exact .inl ⟨rfl, rfl, rfl⟩
  | prepares index answers download host phase found uninterrupted same isPhase =>
      left
      simp [Worker.goOn, same]
  | interrupts index answers download host found interrupted same =>
      left
      simp [Worker.goOn, same]
  | syncs index answers download filled host found calm isFilled same sameIndex kept =>
      rcases notes_or_keeps (some (.settle true)) found isFilled sameIndex kept with
        ⟨sameSyncs, sameApp⟩ | notes
      · exact .inl ⟨sameSyncs, congrArg _ sameApp, congrArg _ sameApp⟩
      · exact .inr (.inl ⟨_, _, notes⟩)
  | panics index answers download host found panics same =>
      have isFilled : false = true ↔
          Fills worker.host.app dataPath download.appInfo download.syncArgs answers :=
        iff_of_false Bool.false_ne_true fun fills => panics.failed fills.startable
      rcases notes_or_keeps none found isFilled (congrArg _ same)
        (fun _ => same) with ⟨sameSyncs, sameApp⟩ | notes
      · exact .inl ⟨sameSyncs, congrArg _ sameApp, congrArg _ sameApp⟩
      · exact .inr (.inl ⟨_, _, notes⟩)
  | settles index download startFlag found =>
      left
      cases startFlag <;> exact ⟨rfl, rfl, rfl⟩
  | runs index answers task host found same kept =>
      by_cases prepared : Prepared task.appInfo task.runArgs answers
      · exact .inr (.inr ⟨index, answers, task, rfl, found, prepared, rfl, rfl⟩)
      · have sameApp := kept prepared
        exact .inl ⟨rfl, congrArg _ sameApp, congrArg _ sameApp⟩

/-- A download that has not started its application had not before, or it is the next one. -/
theorem Single.unsynced_transition (single : Single worker)
    (transition : Transition dataPath worker action after) (unsynced : Unsynced after ticket) :
    after.syncs = worker.syncs ∧ (Unsynced worker ticket ∨ ticket = worker.loads) := by
  obtain ⟨task, member, isPhase, isTicket⟩ := unsynced
  cases transition with
  | waits | rests | launches | runs => exact ⟨rfl, .inl ⟨task, member, isPhase, isTicket⟩⟩
  | loads storage appInfo syncArgs optionArgs args loads =>
      refine ⟨rfl, ?_⟩
      simp only [Worker.spawnDownload, List.mem_append, List.mem_singleton] at member
      rcases member with old | rfl
      · exact .inl ⟨task, old, isPhase, isTicket⟩
      · exact .inr isTicket.symm
  | prepares index answers download host phase found uninterrupted same isPhase' =>
      obtain ⟨rfl, only, _⟩ := single.only found
      simp only [Worker.goOn, only, List.set_cons_zero, List.mem_singleton] at member
      subst member
      exact ⟨rfl, .inl ⟨⟨download, .prepare⟩, List.mem_of_getElem? found, .inl rfl, isTicket⟩⟩
  | interrupts index answers download host found interrupted same =>
      obtain ⟨rfl, only, _⟩ := single.only found
      simp [Worker.goOn, only] at member
  | syncs index answers download filled host found calm isFilled same sameIndex kept =>
      obtain ⟨rfl, only, _⟩ := single.only found
      simp only [Worker.goOn, note_downloads, only, List.set_cons_zero,
        List.mem_singleton] at member
      subst member
      rcases isPhase with isPrepare | isSync
      · cases isPrepare
      · cases isSync
  | panics index answers download host found panics same =>
      obtain ⟨rfl, only, _⟩ := single.only found
      simp [Worker.goOn, only] at member
  | settles index download startFlag found =>
      obtain ⟨rfl, only, _⟩ := single.only found
      simp [Worker.settle, Worker.goOn, only] at member

/-- Starts are written down in the order of the tickets, once for each, and a run remembers
how many there were when it was spawned: the last one was its own. -/
structure Noted (worker : Worker) : Prop extends Ticketed worker where
  sorted : worker.syncs.Pairwise fun later earlier => earlier.ticket < later.ticket
  past : ∀ synced ∈ worker.syncs, synced.ticket < worker.loads
  unsynced : ∀ ticket, Unsynced worker ticket → ∀ synced ∈ worker.syncs, synced.ticket ≠ ticket
  marked : ∀ task ∈ worker.runs, ∀ synced ∈ worker.syncs, synced.ticket = task.ticket →
    ∃ later earlier, worker.syncs = later ++ synced :: earlier ∧ earlier.length + 1 = task.mark
  right : ∀ synced ∈ worker.syncs, synced.filled = synced.possible

/-- The start with the ticket of the current download is the last one. -/
theorem Noted.last (noted : Noted worker) (current : Current worker ticket) {synced : Synced}
    (member : synced ∈ worker.syncs) (isTicket : synced.ticket = ticket) :
    ∃ earlier, worker.syncs = synced :: earlier := by
  have isLatest := noted.latest ticket current
  cases isSyncs : worker.syncs with
  | nil =>
      rw [isSyncs] at member
      cases member
  | cons first earlier =>
      refine ⟨earlier, ?_⟩
      have isPast := noted.past first (by simp [isSyncs])
      have sorted := noted.sorted
      rw [isSyncs] at member sorted
      rcases List.mem_cons.mp member with rfl | isEarlier
      · rfl
      · have isBelow := (List.pairwise_cons.mp sorted).1 synced isEarlier
        omega

theorem Noted.of_notes (noted : Noted worker)
    (transition : Transition dataPath worker action after) {possible : Bool}
    (notes : Notes worker after ticket possible) : Noted after := by
  have current : Current worker ticket := by
    obtain ⟨task, member, _, isTicket⟩ := notes.unsynced
    exact .inl ⟨task, member, isTicket⟩
  have isLatest := noted.latest ticket current
  have later := loads_le_transition transition
  refine ⟨noted.toTicketed.transition transition, ?_, ?_, ?_, ?_, ?_⟩
  · rw [notes.syncs, List.pairwise_cons]
    refine ⟨fun synced member => ?_, noted.sorted⟩
    have isPast := noted.past synced member
    have isOther := noted.unsynced ticket notes.unsynced synced member
    change synced.ticket < ticket
    omega
  · rw [notes.syncs]
    intro synced member
    rcases List.mem_cons.mp member with rfl | old
    · change ticket < after.loads
      omega
    · exact (noted.past synced old).trans_le later
  · intro ticket unsynced
    have sameSyncs := (noted.unsynced_transition transition unsynced).1
    rw [notes.syncs] at sameSyncs
    exact absurd (congrArg List.length sameSyncs) (by simp)
  · rw [notes.runs, notes.syncs]
    intro task waited synced member isTicket
    rcases List.mem_cons.mp member with rfl | old
    · exact absurd (isTicket ▸ current) (noted.known task waited).2
    · obtain ⟨newer, earlier, isSyncs, isMark⟩ := noted.marked task waited synced old isTicket
      exact ⟨_ :: newer, earlier, by rw [isSyncs]; rfl, isMark⟩
  · rw [notes.syncs]
    intro synced member
    rcases List.mem_cons.mp member with rfl | old
    · rfl
    · exact noted.right synced old

/-- A run that is spawned remembers how many starts are written down. -/
theorem Noted.of_same (noted : Noted worker)
    (transition : Transition dataPath worker action after)
    (sameSyncs : after.syncs = worker.syncs) : Noted after := by
  have later := loads_le_transition transition
  refine ⟨noted.toTicketed.transition transition, sameSyncs ▸ noted.sorted, ?_, ?_, ?_,
    sameSyncs ▸ noted.right⟩
  · rw [sameSyncs]
    exact fun synced member => (noted.past synced member).trans_le later
  · rw [sameSyncs]
    intro ticket unsynced synced member
    rcases (noted.unsynced_transition transition unsynced).2 with before | isNew
    · exact noted.unsynced ticket before synced member
    · rw [isNew]
      exact (noted.past synced member).ne
  · rw [sameSyncs]
    intro task waits synced member isTicket
    rcases runs_transition transition with fewer | ⟨new, isRuns, current, isMark, _⟩
    · exact noted.marked task (fewer.subset waits) synced member isTicket
    · rw [isRuns, List.mem_append, List.mem_singleton] at waits
      rcases waits with waited | rfl
      · exact noted.marked task waited synced member isTicket
      · obtain ⟨earlier, isSyncs⟩ := noted.last current member isTicket
        exact ⟨[], earlier, isSyncs, by rw [isMark, isSyncs]; rfl⟩

/-- Every step writes down what it does. -/
theorem Noted.transition (noted : Noted worker)
    (transition : Transition dataPath worker action after) : Noted after := by
  rcases slots_transition transition with
    ⟨sameSyncs, _⟩ | ⟨ticket, possible, notes⟩ | ⟨_, _, _, _, _, _, sameSyncs, _⟩
  · exact noted.of_same transition sameSyncs
  · exact noted.of_notes transition notes
  · exact noted.of_same transition sameSyncs

/-! ## Runs -/

/-- The run acts on what was started for it: the last start has its ticket, got through, and
left the current instance as it is. -/
def OwnInstance (worker : Worker) (task : RunTask) : Prop :=
  ∃ synced earlier, worker.syncs = synced :: earlier ∧ synced.ticket = task.ticket ∧
    synced.filled ∧ synced.index = worker.host.app.curIns ∧
    worker.host.app.current = synced.slot

/-- A run that gets to the lock acts on what was started for it. -/
def RunsOwn (worker : Worker) : Action → Prop
  | .run index answers => ∀ task, worker.runs[index]? = some task →
      Prepared task.appInfo task.runArgs answers → OwnInstance worker task
  | _ => True

/-- A run that gets to the lock does so before another application is started, and its own
application could be started. -/
def InTime (worker : Worker) : Action → Prop
  | .run index answers => ∀ task, worker.runs[index]? = some task →
      Prepared task.appInfo task.runArgs answers → worker.syncs.length = task.mark ∧
        ∃ synced ∈ worker.syncs, synced.ticket = task.ticket ∧ synced.possible
  | _ => True

/-- While the application of the last start waits, the current instance is as it was left. -/
structure Fresh (worker : Worker) : Prop extends Noted worker where
  fresh : ∀ synced earlier, worker.syncs = synced :: earlier →
    (Current worker synced.ticket ∨ ∃ task ∈ worker.runs, task.ticket = synced.ticket) →
      synced.index = worker.host.app.curIns ∧ worker.host.app.current = synced.slot

theorem Noted.own_last (noted : Noted worker) {task : RunTask} (waits : task ∈ worker.runs)
    (inTime : worker.syncs.length = task.mark) {synced : Synced} (member : synced ∈ worker.syncs)
    (isTicket : synced.ticket = task.ticket) : ∃ earlier, worker.syncs = synced :: earlier := by
  obtain ⟨newer, earlier, isSyncs, isMark⟩ := noted.marked task waits synced member isTicket
  have isEmpty : newer = [] := by
    rw [isSyncs, List.length_append, List.length_cons] at inTime
    exact List.eq_nil_of_length_eq_zero (by omega)
  exact ⟨earlier, by rw [isSyncs, isEmpty]; rfl⟩

/-- A run acts on what was started for it if and only if it is in time. -/
theorem Fresh.runsOwn_iff (fresh : Fresh worker) :
    RunsOwn worker action ↔ InTime worker action := by
  cases action with
  | run index answers =>
      refine forall_congr' fun task => forall_congr' fun found => forall_congr' fun _ => ?_
      have waits : task ∈ worker.runs := List.mem_of_getElem? found
      constructor
      · rintro ⟨synced, earlier, isSyncs, isTicket, isFilled, _⟩
        have member : synced ∈ worker.syncs := by simp [isSyncs]
        refine ⟨?_, synced, member, isTicket, fresh.right synced member ▸ isFilled⟩
        obtain ⟨newer, older, isSplit, isMark⟩ := fresh.marked task waits synced member isTicket
        cases newer with
        | nil =>
            rw [isSplit]
            exact isMark
        | cons first rest =>
            have sorted := fresh.sorted
            rw [isSyncs] at isSplit
            rw [isSyncs, List.pairwise_cons] at sorted
            have isLater : synced ∈ earlier := by
              rw [(List.cons.inj isSplit).2]
              simp
            exact absurd (sorted.1 synced isLater) (lt_irrefl _)
      · rintro ⟨inTime, synced, member, isTicket, possible⟩
        obtain ⟨earlier, isSyncs⟩ := fresh.own_last waits inTime member isTicket
        have kept := fresh.fresh synced earlier isSyncs (.inr ⟨task, waits, isTicket.symm⟩)
        exact ⟨synced, earlier, isSyncs, isTicket, (fresh.right synced member).trans possible, kept⟩
  | load | launch | abandon | prepare | sync | settle => exact Iff.rfl

theorem Ticketed.not_mem_eraseIdx (ticketed : Ticketed worker) {index : Nat} {task other : RunTask}
    (found : worker.runs[index]? = some task) (member : other ∈ worker.runs.eraseIdx index) :
    other.ticket ≠ task.ticket := by
  intro same
  obtain ⟨position, isOther, isFound⟩ := List.mem_eraseIdx_iff_getElem?.mp member
  have inside : position < (worker.runs.map (·.ticket)).length := by
    rw [List.length_map]
    exact (List.getElem?_eq_some_iff.mp isFound).1
  apply isOther
  apply (List.getElem?_inj inside ticketed.distinct).mp
  rw [List.getElem?_map, List.getElem?_map, isFound, found]
  exact congrArg some same

/-- What waits after a step waited before it, or it is the next download. -/
theorem Ticketed.waits_transition (ticketed : Ticketed worker)
    (transition : Transition dataPath worker action after)
    (waits : Current after ticket ∨ ∃ task ∈ after.runs, task.ticket = ticket) :
    (Current worker ticket ∨ ∃ task ∈ worker.runs, task.ticket = ticket) ∨
      ticket = worker.loads := by
  rcases waits with current | ⟨task, member, isTicket⟩
  · rcases ticketed.current_transition transition current with ⟨before, _⟩ | ⟨isNew, _⟩
    · exact .inl (.inl before)
    · exact .inr isNew
  · left
    rcases runs_transition transition with fewer | ⟨new, isRuns, current, _⟩
    · exact .inr ⟨task, fewer.subset member, isTicket⟩
    · rw [isRuns, List.mem_append, List.mem_singleton] at member
      rcases member with waited | rfl
      · exact .inr ⟨task, waited, isTicket⟩
      · exact .inl (isTicket ▸ current)

/-- Steps in time leave the current instance alone while the application of the last start
waits. -/
theorem Fresh.transition (fresh : Fresh worker) (inTime : InTime worker action)
    (transition : Transition dataPath worker action after) : Fresh after := by
  refine ⟨fresh.toNoted.transition transition, fun synced earlier isSyncs waits => ?_⟩
  rcases slots_transition transition with ⟨sameSyncs, sameIndex, sameSlot⟩ |
    ⟨ticket, possible, notes⟩ | ⟨index, answers, task, rfl, found, prepared, sameSyncs, isRuns⟩
  · rw [sameSyncs] at isSyncs
    rw [sameIndex, sameSlot]
    apply fresh.fresh synced earlier isSyncs
    refine (fresh.waits_transition transition waits).resolve_right ?_
    exact (fresh.past synced (by simp [isSyncs])).ne
  · rw [notes.syncs] at isSyncs
    obtain ⟨rfl, rfl⟩ := List.cons.inj isSyncs
    exact ⟨notes.curIns.symm, rfl⟩
  · have member : task ∈ worker.runs := List.mem_of_getElem? found
    obtain ⟨isMark, own, isOwn, isTicket, _⟩ := inTime task found prepared
    obtain ⟨older, isLast⟩ := fresh.own_last member isMark isOwn isTicket
    rw [sameSyncs, isLast] at isSyncs
    obtain ⟨rfl, rfl⟩ := List.cons.inj isSyncs
    exfalso
    rcases waits with current | ⟨other, waits, same⟩
    · rw [isTicket] at current
      rcases fresh.current_transition transition current with ⟨before, _⟩ | ⟨isNew, _⟩
      · exact (fresh.known task member).2 before
      · exact absurd isNew (fresh.known task member).1.ne
    · rw [isRuns] at waits
      exact fresh.not_mem_eraseIdx found waits (same.trans isTicket)

theorem fresh_start (machine : Machine) : Fresh (.start machine) := by
  refine ⟨⟨⟨single_start machine, ?_, nofun, List.nodup_nil⟩, .nil, nofun, ?_, nofun, nofun⟩, nofun⟩
  · rintro ticket (⟨task, member, _⟩ | ⟨isReady, _⟩)
    · cases member
    · cases isReady
  · rintro ticket ⟨task, member, _⟩
    cases member

/-- Every run that gets to the lock finds the current instance as it was left by the start
of its own application, and no other start since, if and only if every run gets to the lock
before another application is started and its own could be started. -/
theorem runsOwn_throughout_iff (dataPath : Bytes) (machine : Machine) (actions : List Action) :
    Admitted (workerStep dataPath) RunsOwn (.start machine) actions ↔
      Admitted (workerStep dataPath) InTime (.start machine) actions := by
  refine admitted_congr ?_ ?_ (fresh_start machine) actions
  · intro worker action after fresh inTime taken
    exact fresh.transition inTime (transition_of_step taken)
  · intro worker action fresh
    exact fresh.runsOwn_iff

/-- An application is downloaded, started and to be run, and the one of the next group is
started before it runs. -/
def overtaken : List Action :=
  let answers : DownloadAnswers :=
    { image := { listed := true, filtered := true, filterEnded := true, listEnded := true
                 output := [] }
      pull := .success
      imageAgain := { listed := true, filtered := true, filterEnded := true, listEnded := true
                      output := [] }
      opened := true, digest := some [], fetched := .ok () }
  [.load none (some (plainApp 1 false)), .launch none false, .prepare 0 answers, .sync 0 .success,
    .settle 0, .load none none, .launch none true, .load none (some (plainApp 2 false)),
    .launch none false, .prepare 0 answers, .sync 0 .success]

/-- A run kills the application of another group that was just started. -/
theorem not_runsOwn_throughout :
    ¬∀ (dataPath : Bytes) (machine : Machine) (actions : List Action),
      Admitted (workerStep dataPath) RunsOwn (.start machine) actions := by
  intro runsOwn
  let machine : Machine := { spawned := 0, children := [], containers := [] }
  have admitted := runsOwn [47] machine (overtaken ++ [.run 0 .success])
  have shown : ((Foundation.run (workerStep [47]) (.start machine) overtaken).map fun worker =>
      (worker.syncs.map (·.ticket),
        worker.runs[0]?.map fun task =>
          (task.ticket, decide (Prepared task.appInfo task.runArgs .success)))) =
      some ([1, 0], some (0, true)) := by
    decide +kernel
  obtain ⟨worker, taken, observed⟩ := Option.map_eq_some_iff.mp shown
  obtain ⟨areTickets, isRun⟩ := Prod.mk.inj observed
  obtain ⟨task, found, isTask⟩ := Option.map_eq_some_iff.mp isRun
  obtain ⟨isTicket, isPrepared⟩ := Prod.mk.inj isTask
  have prepared := of_decide_eq_true isPrepared
  obtain ⟨synced, earlier, isSyncs, sameTicket, _⟩ := admitted.last taken task found prepared
  rw [isSyncs, List.map_cons, sameTicket, isTicket] at areTickets
  cases areTickets

end Popsicle.Node
