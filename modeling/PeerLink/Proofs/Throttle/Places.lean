import Mathlib.Data.List.Perm.Basic
import PeerLink.Proofs.Keyed
import PeerLink.Proofs.Throttle.Interleaving

/-!
Contract: where the tasks of a run are, and what can move them.

Every submitted task is in one place: it waits for a slot, it is admitted and has not begun, it is
running, or it gave its slot back. `Places.Step` lists the ways in which tasks change places, and
`Moment.places_after` shows that whatever happens in a moment is one of them. All laws about slots
and about the order of starts are derived from this list alone.

Owns: the places, the steps between them, and the proof that these are the only steps.

Does not own: the laws derived from them.
-/

namespace PeerLink.Throttle

variable {ν : Type}

/-- The tasks of a moment by the place they are in. -/
structure Places where
  limit : Nat
  inFlight : Nat
  submitted : Nat
  /-- The tasks that ever began, in order. -/
  started : List Nat
  /-- The tasks that gave their slot back, in order. -/
  released : List Nat
  /-- The tasks that began and hold a slot, in no particular order. -/
  running : List Nat
  /-- The admitted tasks that have not begun, the next one first. -/
  spawned : List Nat
  /-- The tasks that wait for a slot, the oldest first. -/
  waiting : List Nat

/-- A way in which tasks change places. With `inOrder` only the first admitted task may begin. -/
inductive Places.Step (inOrder : Prop) (before : Places) : Places → Prop where
  /-- No task changes its place. -/
  | stays (running : List Nat) (same : before.running.Perm running) :
      Step inOrder before { before with running := running }
  /-- A submitted task takes a free slot. -/
  | admits (free : before.inFlight < before.limit) :
      Step inOrder before
        { before with
          submitted := before.submitted + 1
          inFlight := before.inFlight + 1
          spawned := before.spawned ++ [before.submitted] }
  /-- A submitted task finds every slot taken. -/
  | queues (taken : before.limit ≤ before.inFlight) :
      Step inOrder before
        { before with
          submitted := before.submitted + 1
          waiting := before.waiting ++ [before.submitted] }
  /-- An admitted task begins. -/
  | begins (earlier : List Nat) (task : Nat) (later running : List Nat)
      (spawned : before.spawned = earlier ++ task :: later)
      (isFirst : inOrder → earlier = [])
      (joins : running.Perm (task :: before.running)) :
      Step inOrder before
        { before with
          started := before.started ++ [task]
          spawned := earlier ++ later
          running := running }
  /-- A running task hands its slot to the oldest waiting one. -/
  | passes (task : Nat) (running : List Nat) (next : Nat) (rest : List Nat)
      (leaves : before.running.Perm (task :: running))
      (waiting : before.waiting = next :: rest) :
      Step inOrder before
        { before with
          released := before.released ++ [task]
          running := running
          spawned := before.spawned ++ [next]
          waiting := rest }
  /-- A running task gives its slot back and no task waits for it. -/
  | frees (task : Nat) (running : List Nat)
      (leaves : before.running.Perm (task :: running))
      (noneWaits : before.waiting = []) :
      Step inOrder before
        { before with
          inFlight := before.inFlight - 1
          released := before.released ++ [task]
          running := running }

/-! ## The places of a moment -/

/-- The task of a turn that ends a started task. -/
def Turn.finishingTask? : Turn ν → Option Nat
  | start _ => none
  | finish task _ => some task.number

/-- The task of an activity, as long as it holds its slot. -/
def Activity.holder? (activity : Activity ν) : Option Nat :=
  match activity.stage with
  | .submitting _ | .ending _ => some activity.task.number
  | .delivering _ => none

/-- The running tasks of a run between turns: those at their gate and those past it. -/
def Run.runningTasks (run : Run ν) : List Nat :=
  run.atGate.map Task.number ++ run.line.filterMap Turn.finishingTask?

/-- The running tasks of a moment. -/
def Moment.runningTasks (moment : Moment ν) : List Nat :=
  moment.busy.filterMap Activity.holder? ++ moment.run.runningTasks

/-- The places of the tasks of a moment. -/
def Moment.places (moment : Moment ν) : Places where
  limit := moment.run.queue.limit
  inFlight := moment.run.queue.inFlight
  submitted := moment.run.submitted
  started := moment.run.startedTasks
  released := moment.released
  running := moment.runningTasks
  spawned := moment.run.spawnedTasks
  waiting := moment.run.waitingTasks

/-! ## Lists with one item taken out or replaced -/

section Lists

variable {α β : Type} {items : List α} {place : Nat} {old : α}

/-- A list around the item in some place, with that item taken out, and with another in its place. -/
theorem exists_split_of_getElem? (found : items[place]? = some old) :
    ∃ earlier later, earlier.length = place ∧ items = earlier ++ old :: later ∧
      items.eraseIdx place = earlier ++ later ∧
      ∀ new, items.set place new = earlier ++ new :: later := by
  obtain ⟨inside, rfl⟩ := List.getElem?_eq_some_iff.mp found
  refine ⟨items.take place, items.drop (place + 1), ?_, ?_, ?_, ?_⟩
  · exact List.length_take_of_le (Nat.le_of_lt inside)
  · rw [List.getElem_cons_drop, List.take_append_drop]
  · exact List.eraseIdx_eq_take_drop_succ items place
  · intro new
    rw [List.set_eq_take_append_cons_drop, if_pos inside]

theorem filterMap_set_of_eq (view : α → Option β) (new : α) (found : items[place]? = some old)
    (same : view new = view old) : (items.set place new).filterMap view = items.filterMap view := by
  obtain ⟨earlier, later, -, split, -, replaced⟩ := exists_split_of_getElem? found
  rw [replaced, split, List.filterMap_append, List.filterMap_append, List.filterMap_cons,
    List.filterMap_cons, same]

theorem filterMap_eraseIdx_of_none (view : α → Option β) (found : items[place]? = some old)
    (unseen : view old = none) :
    (items.eraseIdx place).filterMap view = items.filterMap view := by
  obtain ⟨earlier, later, -, split, erased, -⟩ := exists_split_of_getElem? found
  rw [erased, split, List.filterMap_append, List.filterMap_append, List.filterMap_cons_none unseen]

theorem perm_filterMap_eraseIdx {seen : β} (view : α → Option β) (found : items[place]? = some old)
    (sees : view old = some seen) :
    (items.filterMap view).Perm (seen :: (items.eraseIdx place).filterMap view) := by
  obtain ⟨earlier, later, -, split, erased, -⟩ := exists_split_of_getElem? found
  rw [erased, split, List.filterMap_append, List.filterMap_append, List.filterMap_cons_some sees]
  exact List.perm_middle

theorem perm_filterMap_set_of_none {seen : β} (view : α → Option β) (new : α)
    (found : items[place]? = some old) (sees : view old = some seen) (unseen : view new = none) :
    (items.filterMap view).Perm (seen :: (items.set place new).filterMap view) := by
  obtain ⟨earlier, later, -, split, -, replaced⟩ := exists_split_of_getElem? found
  rw [replaced, split, List.filterMap_append, List.filterMap_append, List.filterMap_cons_some sees,
    List.filterMap_cons_none unseen]
  exact List.perm_middle

theorem perm_filterMap_set_of_some {seen : β} (view : α → Option β) (new : α)
    (found : items[place]? = some old) (unseen : view old = none) (sees : view new = some seen) :
    ((items.set place new).filterMap view).Perm (seen :: items.filterMap view) := by
  obtain ⟨earlier, later, -, split, -, replaced⟩ := exists_split_of_getElem? found
  rw [replaced, split, List.filterMap_append, List.filterMap_append, List.filterMap_cons_some sees,
    List.filterMap_cons_none unseen]
  exact List.perm_middle

end Lists

/-! ## The operations of a run, case by case -/

section Operations

variable (run : Run ν)

theorem Run.submit_of_free (work : Work ν) (free : run.queue.inFlight < run.queue.limit) :
    run.submit work =
      { run with
        queue := { run.queue with inFlight := run.queue.inFlight + 1 }
        submitted := run.submitted + 1
        handles := if work.kept then run.handles ++ [run.submitted] else run.handles
        line := run.line ++ [.start ⟨run.submitted, work⟩] } := by
  simp [Run.submit, Queue.offer, free, Run.enlist]

theorem Run.submit_of_taken (work : Work ν) (taken : run.queue.limit ≤ run.queue.inFlight) :
    run.submit work =
      { run with
        queue := { run.queue with pending := run.queue.pending ++ [⟨run.submitted, work⟩] }
        submitted := run.submitted + 1
        handles := if work.kept then run.handles ++ [run.submitted] else run.handles } := by
  simp [Run.submit, Queue.offer, Nat.not_lt.mpr taken, Run.enlist]

@[simp] theorem Run.submitted_submit (work : Work ν) :
    (run.submit work).submitted = run.submitted + 1 := by
  by_cases free : run.queue.inFlight < run.queue.limit
  · rw [run.submit_of_free work free]
  · rw [run.submit_of_taken work (Nat.le_of_not_lt free)]

theorem Run.giveBack_of_waiting {next : Task ν} {rest : List (Task ν)}
    (waiting : run.queue.pending = next :: rest) :
    run.giveBack =
      { run with
        queue := { run.queue with pending := rest }
        line := run.line ++ [.start next] } := by
  simp [Run.giveBack, Queue.release, waiting, Run.enlist]

theorem Run.giveBack_of_noneWaits (noneWaits : run.queue.pending = []) :
    run.giveBack =
      { run with queue := { run.queue with inFlight := run.queue.inFlight - 1 } } := by
  simp [Run.giveBack, Queue.release, noneWaits, Run.enlist]

@[simp] theorem Run.submitted_giveBack : run.giveBack.submitted = run.submitted := by
  cases pending : run.queue.pending with
  | nil => rw [run.giveBack_of_noneWaits pending]
  | cons next rest => rw [run.giveBack_of_waiting pending]

variable (task : Task ν) (ending : Ending ν)

@[simp] theorem Run.account_noteEnd :
    (run.noteEnd task ending).account.filterMap RunEntry.startedTask? =
      run.account.filterMap RunEntry.startedTask? := by
  cases ending <;> simp [Run.noteEnd, Run.note, RunEntry.startedTask?]

@[simp] theorem Run.queue_noteEnd : (run.noteEnd task ending).queue = run.queue := by
  cases ending <;> rfl

@[simp] theorem Run.line_noteEnd : (run.noteEnd task ending).line = run.line := by
  cases ending <;> rfl

@[simp] theorem Run.atGate_noteEnd : (run.noteEnd task ending).atGate = run.atGate := by
  cases ending <;> rfl

@[simp] theorem Run.submitted_noteEnd : (run.noteEnd task ending).submitted = run.submitted := by
  cases ending <;> rfl

@[simp] theorem Run.endings_noteEnd : (run.noteEnd task ending).endings = run.endings := by
  cases ending <;> rfl

@[simp] theorem Run.handles_noteEnd : (run.noteEnd task ending).handles = run.handles := by
  cases ending <;> rfl

end Operations

/-! ## Every happening is a step between places -/

namespace Moment

variable {moment : Moment ν} {inOrder : Prop}

theorem step_submit (moment : Moment ν) (work : Work ν) :
    Places.Step inOrder moment.places { moment with run := moment.run.submit work }.places := by
  by_cases free : moment.run.queue.inFlight < moment.run.queue.limit
  · have placed : { moment with run := moment.run.submit work }.places =
        { moment.places with
          submitted := moment.places.submitted + 1
          inFlight := moment.places.inFlight + 1
          spawned := moment.places.spawned ++ [moment.places.submitted] } := by
      simp [places, moment.run.submit_of_free work free, runningTasks, Run.runningTasks, Run.spawnedTasks,
        Run.startedTasks, Run.waitingTasks, Turn.startingTask?, Turn.finishingTask?]
    rw [placed]
    exact .admits free
  · have taken : moment.run.queue.limit ≤ moment.run.queue.inFlight := Nat.le_of_not_lt free
    have placed : { moment with run := moment.run.submit work }.places =
        { moment.places with
          submitted := moment.places.submitted + 1
          waiting := moment.places.waiting ++ [moment.places.submitted] } := by
      simp [places, moment.run.submit_of_taken work taken, runningTasks, Run.runningTasks,
        Run.spawnedTasks, Run.startedTasks, Run.waitingTasks]
    rw [placed]
    exact .queues taken

/-- Noting a submission and going on with the rest of the children moves no task. -/
theorem step_submitChild {place : Nat} {task : Task ν} {child : Work ν} {rest : List (Work ν)}
    (found : moment.busy[place]? = some ⟨task, .submitting (child :: rest)⟩) :
    Places.Step inOrder moment.places
      (moment.goOn place ⟨task, .submitting (child :: rest)⟩).places := by
  have holders := filterMap_set_of_eq Activity.holder? ⟨task, .submitting rest⟩ found rfl
  have placed : (moment.goOn place ⟨task, .submitting (child :: rest)⟩).places =
      { moment with run := moment.run.submit child }.places := by
    simp [places, goOn, runningTasks, Run.runningTasks, Run.spawnedTasks, Run.waitingTasks, holders,
      Run.note, Run.startedTasks, RunEntry.startedTask?]
  rw [placed]
  exact step_submit moment child

theorem step_endSubmitting {place : Nat} {task : Task ν}
    (found : moment.busy[place]? = some ⟨task, .submitting []⟩) :
    Places.Step inOrder moment.places (moment.endSubmitting place task).places := by
  have ends (ending : Ending ν) : (moment.busy.set place ⟨task, .ending ending⟩).filterMap
      Activity.holder? = moment.busy.filterMap Activity.holder? :=
    filterMap_set_of_eq _ _ found rfl
  have waits := perm_filterMap_eraseIdx Activity.holder? found rfl
  have same : moment.runningTasks.Perm (moment.endSubmitting place task).runningTasks := by
    cases pace : task.work.pace with
    | gated =>
        rw [List.perm_iff_count]
        intro number
        have counted := waits.count_eq number
        simp only [runningTasks, Run.runningTasks, endSubmitting, pace, List.map_append,
          List.map_cons, List.map_nil, List.count_append, List.count_cons, List.count_nil]
          at counted ⊢
        omega
    | instant | panics | panicsEarly =>
        simp [runningTasks, Run.runningTasks, endSubmitting, pace, ends]
  have placed : (moment.endSubmitting place task).places =
      { moment.places with running := (moment.endSubmitting place task).runningTasks } := by
    cases pace : task.work.pace <;>
      simp [places, endSubmitting, pace, Run.spawnedTasks, Run.startedTasks, Run.waitingTasks]
  rw [placed]
  exact .stays _ same

/-- A task whose work is over gives its slot back. -/
theorem step_giveBack {place : Nat} {task : Task ν} {ending : Ending ν}
    (found : moment.busy[place]? = some ⟨task, .ending ending⟩) :
    Places.Step inOrder moment.places (moment.goOn place ⟨task, .ending ending⟩).places := by
  have holders := perm_filterMap_set_of_none Activity.holder? ⟨task, .delivering ending⟩ found
    rfl rfl
  let running := (moment.busy.set place ⟨task, .delivering ending⟩).filterMap Activity.holder? ++
    moment.run.runningTasks
  have leaves : moment.runningTasks.Perm (task.number :: running) := holders.append_right _
  cases pending : moment.run.queue.pending with
  | nil =>
      have given := Run.giveBack_of_noneWaits (moment.run.noteEnd task ending)
        (by simpa using pending)
      have placed : (moment.goOn place ⟨task, .ending ending⟩).places =
          { moment.places with
            inFlight := moment.places.inFlight - 1
            released := moment.places.released ++ [task.number]
            running := running } := by
        simp [places, goOn, given, running, runningTasks, Run.runningTasks, Run.spawnedTasks,
          Run.startedTasks, Run.waitingTasks, pending]
      rw [placed]
      exact .frees task.number running leaves (by simp [places, Run.waitingTasks, pending])
  | cons next rest =>
      have given := Run.giveBack_of_waiting (moment.run.noteEnd task ending)
        (by simpa using pending)
      have placed : (moment.goOn place ⟨task, .ending ending⟩).places =
          { moment.places with
            released := moment.places.released ++ [task.number]
            running := running
            spawned := moment.places.spawned ++ [next.number]
            waiting := rest.map Task.number } := by
        simp [places, goOn, given, running, runningTasks, Run.runningTasks, Run.spawnedTasks,
          Run.startedTasks, Run.waitingTasks, Turn.startingTask?, Turn.finishingTask?]
      rw [placed]
      exact .passes task.number running next.number (rest.map Task.number) leaves
        (by simp [places, Run.waitingTasks, pending])

/-- A result that is delivered moves no task: its task gave the slot back before. -/
theorem step_deliver {place : Nat} {task : Task ν} {ending : Ending ν}
    (found : moment.busy[place]? = some ⟨task, .delivering ending⟩) :
    Places.Step inOrder moment.places (moment.goOn place ⟨task, .delivering ending⟩).places := by
  have holders := filterMap_eraseIdx_of_none Activity.holder? found rfl
  have placed : (moment.goOn place ⟨task, .delivering ending⟩).places = moment.places := by
    simp [places, goOn, Run.deliver, runningTasks, Run.runningTasks, Run.spawnedTasks,
      Run.startedTasks, Run.waitingTasks, holders]
  rw [placed]
  exact .stays _ (List.Perm.refl _)

theorem step_goOn {place : Nat} {activity : Activity ν}
    (found : moment.busy[place]? = some activity) :
    Places.Step inOrder moment.places (moment.goOn place activity).places := by
  obtain ⟨task, stage⟩ := activity
  match stage with
  | .submitting (child :: rest) => exact step_submitChild found
  | .submitting [] => exact step_endSubmitting found
  | .ending ending => exact step_giveBack found
  | .delivering ending => exact step_deliver found

/-- A turn begins: a first turn starts its task, any other one goes on with a running task. -/
theorem step_begin {place : Nat} {turn : Turn ν} (found : moment.run.line[place]? = some turn)
    (isFirst : inOrder → place = 0) :
    Places.Step inOrder moment.places (moment.beginTurn place turn).places := by
  cases turn with
  | start task =>
      obtain ⟨earlier, later, length, line, erased, -⟩ := exists_split_of_getElem? found
      have finishing := filterMap_eraseIdx_of_none Turn.finishingTask? found rfl
      rw [erased, List.filterMap_append] at finishing
      have holds : Activity.holder? ⟨task, task.firstStage⟩ = some task.number := by
        cases pace : task.work.pace <;> simp [Activity.holder?, Task.firstStage, pace]
      let running := (moment.busy.filterMap Activity.holder? ++ [task.number]) ++
        moment.run.runningTasks
      have joins : running.Perm (task.number :: moment.runningTasks) := by
        rw [show running = moment.busy.filterMap Activity.holder? ++
          task.number :: moment.run.runningTasks by simp [running]]
        exact List.perm_middle
      have placed : (moment.beginTurn place (.start task)).places =
          { moment.places with
            started := moment.places.started ++ [task.number]
            spawned := earlier.filterMap Turn.startingTask? ++ later.filterMap Turn.startingTask?
            running := running } := by
        simp [places, beginTurn, running, runningTasks, Run.runningTasks, Run.spawnedTasks,
          Run.startedTasks, Run.waitingTasks, Run.note, RunEntry.startedTask?, finishing, erased,
          holds]
      rw [placed]
      refine .begins _ task.number _ running ?_ ?_ joins
      · simp [places, Run.spawnedTasks, line, Turn.startingTask?]
      · intro ordered
        have empty : earlier = [] := List.length_eq_zero_iff.mp (length.trans (isFirst ordered))
        rw [empty, List.filterMap_nil]
  | finish task ending =>
      have starting := filterMap_eraseIdx_of_none Turn.startingTask? found rfl
      have finishing := perm_filterMap_eraseIdx Turn.finishingTask? found rfl
      have same : moment.runningTasks.Perm
          (moment.beginTurn place (.finish task ending)).runningTasks := by
        rw [List.perm_iff_count]
        intro number
        have counted := finishing.count_eq number
        simp only [runningTasks, Run.runningTasks, beginTurn, List.filterMap_append,
          List.filterMap_cons, List.filterMap_nil, Activity.holder?, List.count_append,
          List.count_cons, List.count_nil] at counted ⊢
        omega
      have placed : (moment.beginTurn place (.finish task ending)).places =
          { moment.places with
            running := (moment.beginTurn place (.finish task ending)).runningTasks } := by
        simp [places, beginTurn, Run.spawnedTasks, Run.startedTasks, Run.waitingTasks, starting]
      rw [placed]
      exact .stays _ same

/-- A task whose gate opens stays a running one. -/
theorem step_openGate (distinct : moment.runningTasks.Nodup) (number : Nat) (ending : Ending ν) :
    Places.Step inOrder moment.places
      { moment with run := (moment.run.openGate number ending).2 }.places := by
  cases found : moment.run.atGate.find? (·.number == number) with
  | none =>
      rw [show (moment.run.openGate number ending).2 = moment.run by
        simp only [Run.openGate, found]]
      exact .stays _ (List.Perm.refl _)
  | some task =>
      have gateDistinct : (moment.run.atGate.map Task.number).Nodup :=
        ((List.nodup_append.mp ((List.nodup_append.mp distinct).2.1)).1)
      obtain ⟨-, earlier, later, gate, remaining⟩ := exists_split_of_find? gateDistinct found
      have same : moment.runningTasks.Perm
          { moment with run := (moment.run.openGate number ending).2 }.runningTasks := by
        rw [List.perm_iff_count]
        intro counted
        simp only [runningTasks, Run.runningTasks, Run.openGate, found, remaining]
        simp only [gate, List.filterMap_append, List.filterMap_cons, List.filterMap_nil,
          Turn.finishingTask?, List.map_append, List.map_cons, List.count_append, List.count_cons,
          List.count_nil]
        omega
      have placed : { moment with run := (moment.run.openGate number ending).2 }.places =
          { moment.places with
            running :=
              { moment with run := (moment.run.openGate number ending).2 }.runningTasks } := by
        simp [places, Run.openGate, found, Run.spawnedTasks, Run.startedTasks, Run.waitingTasks,
          Turn.startingTask?]
      rw [placed]
      exact .stays _ same

/-- Whatever happens, tasks change places by a step. -/
theorem step_after (distinct : moment.runningTasks.Nodup) (happening : Happening ν)
    (ordered : inOrder → happening.InOrder) :
    Places.Step inOrder moment.places (moment.after happening).places := by
  cases happening with
  | submit work => exact step_submit moment work
  | openGate task ending => exact step_openGate distinct task ending
  | dropHandle task => exact .stays _ (List.Perm.refl _)
  | collect => exact .stays _ (List.Perm.refl _)
  | begin place =>
      cases found : moment.run.line[place]? with
      | none =>
          rw [show moment.after (.begin place) = moment by simp only [after, found]]
          exact .stays _ (List.Perm.refl _)
      | some turn =>
          rw [show moment.after (.begin place) = moment.beginTurn place turn by
            simp only [after, found]]
          exact step_begin found ordered
  | goOn place =>
      cases found : moment.busy[place]? with
      | none =>
          rw [show moment.after (.goOn place) = moment by simp only [after, found]]
          exact .stays _ (List.Perm.refl _)
      | some activity =>
          rw [show moment.after (.goOn place) = moment.goOn place activity by
            simp only [after, found]]
          exact step_goOn found

end Moment

end PeerLink.Throttle
