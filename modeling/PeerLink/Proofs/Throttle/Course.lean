import PeerLink.Proofs.Throttle.Driven

/-!
Contract: what becomes of the tasks of a queue, and what can change it.

A task is open until its end is settled: it submits its children, or it waits at its gate. Then its
work ends, its slot goes back, and its result is delivered, one after the other. `Course.Step` lists
the ways in which tasks go on and handles are given up, together with what they add to the history, and
`Moment.course_after` shows that whatever happens in a moment is one of them.

Owns: courses, their steps, and the proof that these are the only steps.

Does not own: what the steps preserve.
-/

namespace PeerLink.Throttle

variable {ν : Type}

/-- What has become of the tasks and the handles of a queue, beside its history. -/
structure Course (ν : Type) where
  history : History ν
  submitted : Nat
  /-- The tasks that have not come to their gate or their end, in no particular order. -/
  undecided : List (Task ν)
  atGate : List (Task ν)
  /-- How the tasks end that still hold their slots, in no particular order. -/
  ending : List (Nat × Ending ν)
  /-- How the tasks ended that gave their slots back and whose results cannot be seen yet. -/
  delivering : List (Nat × Ending ν)
  delivered : List (Nat × Ending ν)
  /-- The tasks that gave their slots back, in order. -/
  released : List Nat
  handles : List Nat

namespace Course

/-- The kept handles whose results can be seen, with the results. -/
def visible (course : Course ν) : List (Nat × Ending ν) :=
  course.handles.filterMap fun task => (course.delivered.lookup task).map fun ending => (task, ending)

/-- A way in which tasks go on or handles are given up. -/
inductive Step (before : Course ν) : Course ν → Prop where
  /-- Nothing but the order changes in which tasks are listed. -/
  | moves (undecided : List (Task ν)) (ending : List (Nat × Ending ν))
      (sameUndecided : before.undecided.Perm undecided) (sameEnding : before.ending.Perm ending) :
      Step before { before with undecided := undecided, ending := ending }
  | submits (work : Work ν) (undecided : List (Task ν))
      (joins : undecided.Perm (⟨before.submitted, work⟩ :: before.undecided)) :
      Step before
        { before with
          history := before.history ++ { works := [work] }
          submitted := before.submitted + 1
          undecided := undecided
          handles := if work.kept then before.handles ++ [before.submitted] else before.handles }
  /-- A task that has submitted its children waits at its gate. -/
  | waits (task : Task ν) (undecided : List (Task ν))
      (leaves : before.undecided.Perm (task :: undecided)) (gated : task.work.pace = .gated) :
      Step before { before with undecided := undecided, atGate := before.atGate ++ [task] }
  /-- The work of a task comes to the end that is its own. -/
  | ends (task : Task ν) (result : Ending ν) (undecided : List (Task ν))
      (ending : List (Nat × Ending ν)) (leaves : before.undecided.Perm (task :: undecided))
      (own : task.work.ending? none = some result)
      (joins : ending.Perm ((task.number, result) :: before.ending)) :
      Step before { before with undecided := undecided, ending := ending }
  /-- A task at its gate is told how to end. -/
  | tells (task : Task ν) (result : Ending ν) (atGate : List (Task ν))
      (ending : List (Nat × Ending ν)) (leaves : before.atGate.Perm (task :: atGate))
      (joins : ending.Perm ((task.number, result) :: before.ending)) :
      Step before
        { before with
          history := before.history ++ { told := [(task.number, result)] }
          atGate := atGate
          ending := ending }
  /-- A task whose work is over gives its slot back. -/
  | gives (task : Nat) (result : Ending ν) (ending delivering : List (Nat × Ending ν))
      (leaves : before.ending.Perm ((task, result) :: ending))
      (joins : delivering.Perm ((task, result) :: before.delivering)) :
      Step before
        { before with
          ending := ending
          delivering := delivering
          released := before.released ++ [task] }
  | delivers (task : Nat) (result : Ending ν) (delivering : List (Nat × Ending ν))
      (leaves : before.delivering.Perm ((task, result) :: delivering)) :
      Step before
        { before with
          delivering := delivering
          delivered := before.delivered ++ [(task, result)] }
  | drops (task : Nat) (kept : task ∈ before.handles) :
      Step before
        { before with
          history := before.history ++ { dropped := [task] }
          handles := before.handles.filter (· != task) }
  | collects :
      Step before
        { before with
          history := before.history ++ { seen := before.visible }
          handles := before.handles.filter fun task => (before.delivered.lookup task).isNone }

theorem Step.refl (course : Course ν) : Step course course :=
  .moves _ _ (List.Perm.refl _) (List.Perm.refl _)

end Course

/-! ## The course of a moment -/

/-- The task of a first turn. -/
def Turn.unbegun? : Turn ν → Option (Task ν)
  | start task => some task
  | finish _ _ => none

/-- How the task ends whose gate was opened. -/
def Turn.decided? : Turn ν → Option (Nat × Ending ν)
  | start _ => none
  | finish task ending => some (task.number, ending)

namespace Activity

def undecided? (activity : Activity ν) : Option (Task ν) :=
  match activity.stage with
  | .submitting _ => some activity.task
  | .ending _ | .delivering _ => none

def decided? (activity : Activity ν) : Option (Nat × Ending ν) :=
  match activity.stage with
  | .ending ending => some (activity.task.number, ending)
  | .submitting _ | .delivering _ => none

def delivering? (activity : Activity ν) : Option (Nat × Ending ν) :=
  match activity.stage with
  | .delivering ending => some (activity.task.number, ending)
  | .submitting _ | .ending _ => none

end Activity

/-- The tasks of a run that have not begun, in no particular order. -/
def Run.unbegun (run : Run ν) : List (Task ν) :=
  run.line.filterMap Turn.unbegun? ++ run.queue.pending

namespace Moment

/-- The course of the tasks in a moment with this history. -/
def course (moment : Moment ν) (history : History ν) : Course ν where
  history := history
  submitted := moment.run.submitted
  undecided := moment.busy.filterMap Activity.undecided? ++ moment.run.unbegun
  atGate := moment.run.atGate
  ending := moment.busy.filterMap Activity.decided? ++ moment.run.line.filterMap Turn.decided?
  delivering := moment.busy.filterMap Activity.delivering?
  delivered := moment.run.endings
  released := moment.released
  handles := moment.run.handles

variable {moment : Moment ν} (history : History ν)

/-! ## Every happening is a step -/

/-- A submitted task has not begun, whether it is admitted or waits. -/
theorem unbegun_submit (run : Run ν) (work : Work ν) :
    (run.submit work).unbegun.Perm (⟨run.submitted, work⟩ :: run.unbegun) := by
  by_cases free : run.queue.inFlight < run.queue.limit
  · rw [run.submit_of_free work free]
    simp only [Run.unbegun, List.filterMap_append, List.filterMap_cons, List.filterMap_nil,
      Turn.unbegun?, List.append_assoc, List.singleton_append]
    exact List.perm_middle
  · rw [run.submit_of_taken work (Nat.le_of_not_lt free)]
    simp only [Run.unbegun, ← List.append_assoc]
    exact List.perm_append_singleton _ _

theorem course_submit (moment : Moment ν) (work : Work ν) :
    Course.Step (moment.course history)
      ({ moment with run := moment.run.submit work }.course
        (history ++ ({ works := [work] } : History ν))) := by
  let undecided := moment.busy.filterMap Activity.undecided? ++ (moment.run.submit work).unbegun
  have joins : undecided.Perm
      (⟨moment.run.submitted, work⟩ :: (moment.course history).undecided) :=
    ((unbegun_submit moment.run work).append_left _).trans List.perm_middle
  have becomes : { moment with run := moment.run.submit work }.course
      (history ++ ({ works := [work] } : History ν)) =
      { moment.course history with
        history := history ++ ({ works := [work] } : History ν)
        submitted := moment.run.submitted + 1
        undecided := undecided
        handles := if work.kept then moment.run.handles ++ [moment.run.submitted]
          else moment.run.handles } := by
    by_cases free : moment.run.queue.inFlight < moment.run.queue.limit
    · simp [course, undecided, moment.run.submit_of_free work free, Turn.decided?]
    · simp [course, undecided, moment.run.submit_of_taken work (Nat.le_of_not_lt free)]
  rw [becomes]
  exact .submits work undecided joins

theorem course_submitChild {place : Nat} {task : Task ν} {child : Work ν} {rest : List (Work ν)}
    (found : moment.busy[place]? = some ⟨task, .submitting (child :: rest)⟩) :
    Course.Step (moment.course history)
      ((moment.goOn place ⟨task, .submitting (child :: rest)⟩).course
        (history ++ ({ works := [child] } : History ν))) := by
  have undecided := filterMap_set_of_eq Activity.undecided? ⟨task, .submitting rest⟩ found rfl
  have decided := filterMap_set_of_eq Activity.decided? ⟨task, .submitting rest⟩ found rfl
  have delivering := filterMap_set_of_eq Activity.delivering? ⟨task, .submitting rest⟩ found rfl
  have becomes (later : History ν) :
      (moment.goOn place ⟨task, .submitting (child :: rest)⟩).course later =
        { moment with run := moment.run.submit child }.course later := by
    simp [course, goOn, undecided, decided, delivering, Run.note, Run.unbegun]
  rw [becomes]
  exact course_submit history moment child

/-- A task that has submitted its children waits at its gate, or its work ends. -/
theorem course_endSubmitting {place : Nat} {task : Task ν}
    (found : moment.busy[place]? = some ⟨task, .submitting []⟩) :
    Course.Step (moment.course history) ((moment.endSubmitting place task).course history) := by
  have ends (ending : Ending ν) (own : task.work.ending? none = some ending) :
      Course.Step (moment.course history)
        ({ moment with busy := moment.busy.set place ⟨task, .ending ending⟩ }.course history) := by
    have left := perm_filterMap_set_of_none Activity.undecided? ⟨task, .ending ending⟩ found rfl rfl
    have joined := perm_filterMap_set_of_some Activity.decided? ⟨task, .ending ending⟩ found rfl rfl
    have delivering :=
      filterMap_set_of_eq Activity.delivering? ⟨task, .ending ending⟩ found rfl
    have ended : Course.Step (moment.course history) _ :=
      .ends task ending _ _ (left.append_right _) own (joined.append_right _)
    rw [show (moment.course history).delivering = _ from delivering.symm] at ended
    exact ended
  cases pace : task.work.pace with
  | gated =>
      have left := perm_filterMap_eraseIdx Activity.undecided? found rfl
      have decided := filterMap_eraseIdx_of_none Activity.decided? found rfl
      have delivering := filterMap_eraseIdx_of_none Activity.delivering? found rfl
      have becomes : (moment.endSubmitting place task).course history =
          { moment.course history with
            undecided := (moment.busy.eraseIdx place).filterMap Activity.undecided? ++
              moment.run.unbegun
            atGate := moment.run.atGate ++ [task] } := by
        simp [course, endSubmitting, pace, decided, delivering, Run.unbegun]
      rw [becomes]
      exact .waits task _ (left.append_right _) pace
  | instant =>
      rw [endSubmitting, pace]
      exact ends (.returned task.work.value) (by rw [Work.ending?, pace])
  | panics | panicsEarly =>
      rw [endSubmitting, pace]
      exact ends .panicked (by rw [Work.ending?, pace])

/-- A task whose work is over gives its slot back. -/
theorem course_giveBack {place : Nat} {task : Task ν} {result : Ending ν}
    (found : moment.busy[place]? = some ⟨task, .ending result⟩) :
    Course.Step (moment.course history)
      ((moment.goOn place ⟨task, .ending result⟩).course history) := by
  have undecided := filterMap_set_of_eq Activity.undecided? ⟨task, .delivering result⟩ found rfl
  have left := perm_filterMap_set_of_none Activity.decided? ⟨task, .delivering result⟩ found rfl rfl
  have joined :=
    perm_filterMap_set_of_some Activity.delivering? ⟨task, .delivering result⟩ found rfl rfl
  have becomes : (moment.goOn place ⟨task, .ending result⟩).course history =
      { moment.course history with
        ending := (moment.busy.set place ⟨task, .delivering result⟩).filterMap Activity.decided? ++
          moment.run.line.filterMap Turn.decided?
        delivering :=
          (moment.busy.set place ⟨task, .delivering result⟩).filterMap Activity.delivering?
        released := moment.released ++ [task.number] } := by
    cases pending : moment.run.queue.pending with
    | nil =>
        have given := Run.giveBack_of_noneWaits (moment.run.noteEnd task result)
          (by simpa using pending)
        simp [course, goOn, given, undecided, Run.unbegun, pending]
    | cons next rest =>
        have given := Run.giveBack_of_waiting (moment.run.noteEnd task result)
          (by simpa using pending)
        simp [course, goOn, given, undecided, Run.unbegun, pending, Turn.unbegun?, Turn.decided?]
  rw [becomes]
  exact .gives task.number result _ _ (left.append_right _) joined

theorem course_deliver {place : Nat} {task : Task ν} {result : Ending ν}
    (found : moment.busy[place]? = some ⟨task, .delivering result⟩) :
    Course.Step (moment.course history)
      ((moment.goOn place ⟨task, .delivering result⟩).course history) := by
  have undecided := filterMap_eraseIdx_of_none Activity.undecided? found rfl
  have decided := filterMap_eraseIdx_of_none Activity.decided? found rfl
  have left := perm_filterMap_eraseIdx Activity.delivering? found rfl
  have becomes : (moment.goOn place ⟨task, .delivering result⟩).course history =
      { moment.course history with
        delivering := (moment.busy.eraseIdx place).filterMap Activity.delivering?
        delivered := moment.run.endings ++ [(task.number, result)] } := by
    simp [course, goOn, Run.deliver, Run.unbegun, undecided, decided]
  rw [becomes]
  exact .delivers task.number result _ left

theorem course_goOn {place : Nat} {activity : Activity ν}
    (found : moment.busy[place]? = some activity) :
    Course.Step (moment.course history)
      ((moment.goOn place activity).course
        (history ++ ({ works := activity.submission?.toList } : History ν))) := by
  obtain ⟨task, stage⟩ := activity
  match stage with
  | .submitting (child :: rest) => exact course_submitChild history found
  | .submitting [] =>
      show Course.Step _ (Moment.course _ (history ++ ({} : History ν)))
      rw [History.append_empty]
      exact course_endSubmitting history found
  | .ending result =>
      show Course.Step _ (Moment.course _ (history ++ ({} : History ν)))
      rw [History.append_empty]
      exact course_giveBack history found
  | .delivering result =>
      show Course.Step _ (Moment.course _ (history ++ ({} : History ν)))
      rw [History.append_empty]
      exact course_deliver history found

/-- A turn begins: a first turn with its submissions or with an early end, any other one with the end
that the task was told. -/
theorem course_begin {place : Nat} {turn : Turn ν} (found : moment.run.line[place]? = some turn) :
    Course.Step (moment.course history) ((moment.beginTurn place turn).course history) := by
  cases turn with
  | start task =>
      have decided := filterMap_eraseIdx_of_none Turn.decided? found rfl
      let others := moment.busy.filterMap Activity.undecided? ++
        ((moment.run.line.eraseIdx place).filterMap Turn.unbegun? ++ moment.run.queue.pending)
      have leaves : (moment.course history).undecided.Perm (task :: others) :=
        (((perm_filterMap_eraseIdx Turn.unbegun? found rfl).append_right _).append_left _).trans
          List.perm_middle
      by_cases early : task.work.pace = .panicsEarly
      · have becomes : (moment.beginTurn place (.start task)).course history =
            { moment.course history with
              undecided := others
              ending := moment.busy.filterMap Activity.decided? ++
                (task.number, .panicked) :: moment.run.line.filterMap Turn.decided? } := by
          simp [course, beginTurn, Run.note, Run.unbegun, Task.firstStage, early, others,
            Activity.undecided?, Activity.decided?, Activity.delivering?, decided]
        rw [becomes]
        exact .ends task .panicked _ _ leaves (by rw [Work.ending?, early]) List.perm_middle
      · let begun := moment.busy.filterMap Activity.undecided? ++ task ::
          ((moment.run.line.eraseIdx place).filterMap Turn.unbegun? ++ moment.run.queue.pending)
        have becomes : (moment.beginTurn place (.start task)).course history =
            { moment.course history with undecided := begun } := by
          simp [course, beginTurn, Run.note, Run.unbegun, Task.firstStage_eq early, begun,
            Activity.undecided?, Activity.decided?, Activity.delivering?, decided]
        rw [becomes]
        exact .moves _ _ (leaves.trans List.perm_middle.symm) (List.Perm.refl _)
  | finish task result =>
      have unbegun := filterMap_eraseIdx_of_none Turn.unbegun? found rfl
      have left := perm_filterMap_eraseIdx Turn.decided? found rfl
      let ending := moment.busy.filterMap Activity.decided? ++
        (task.number, result) :: (moment.run.line.eraseIdx place).filterMap Turn.decided?
      have becomes : (moment.beginTurn place (.finish task result)).course history =
          { moment.course history with ending := ending } := by
        simp [course, beginTurn, Run.unbegun, ending,
          Activity.undecided?, Activity.decided?, Activity.delivering?, unbegun]
      rw [becomes]
      exact .moves _ _ (List.Perm.refl _) (left.append_left _)

/-- A task whose gate opens is told how to end. -/
theorem course_openGate (distinct : (moment.run.atGate.map Task.number).Nodup) (number : Nat)
    (result : Ending ν) :
    Course.Step (moment.course history)
      ((moment.after (.openGate number result)).course
        (history ++ moment.adds (.openGate number result))) := by
  cases found : moment.run.atGate.find? (·.number == number) with
  | none =>
      have becomes : (moment.after (.openGate number result)).course
          (history ++ moment.adds (.openGate number result)) = moment.course history := by
        simp [course, after, adds, Run.openGate, found, Run.unbegun]
      rw [becomes]
      exact .refl _
  | some task =>
      obtain rfl : task.number = number := (exists_split_of_find? distinct found).1
      have becomes : (moment.after (.openGate task.number result)).course
          (history ++ moment.adds (.openGate task.number result)) =
          { moment.course history with
            history := history ++ ({ told := [(task.number, result)] } : History ν)
            atGate := moment.run.atGate.filter (·.number != task.number)
            ending := moment.busy.filterMap Activity.decided? ++
              (moment.run.line.filterMap Turn.decided? ++ [(task.number, result)]) } := by
        simp [course, after, adds, Run.openGate, found, Run.unbegun, Turn.unbegun?, Turn.decided?]
      rw [becomes]
      refine .tells task result _ _ (perm_cons_filter distinct found) ?_
      rw [← List.append_assoc]
      exact List.perm_append_singleton _ _

theorem course_dropHandle (number : Nat) :
    Course.Step (moment.course history)
      ((moment.after (.dropHandle number)).course (history ++ moment.adds (.dropHandle number))) := by
  by_cases kept : number ∈ moment.run.handles
  · have becomes : (moment.after (.dropHandle number)).course
        (history ++ moment.adds (.dropHandle number)) =
        { moment.course history with
          history := history ++ ({ dropped := [number] } : History ν)
          handles := moment.run.handles.filter (· != number) } := by
      simp [course, after, adds, Run.dropHandle, kept, Run.unbegun]
    rw [becomes]
    exact .drops number kept
  · have becomes : (moment.after (.dropHandle number)).course
        (history ++ moment.adds (.dropHandle number)) = moment.course history := by
      have none : moment.run.handles.filter (· != number) = moment.run.handles :=
        List.filter_eq_self.mpr fun other member => by
          have differs : other ≠ number := fun equal => kept (equal ▸ member)
          simpa using differs
      simp [course, after, adds, Run.dropHandle, kept, Run.unbegun, none]
    rw [becomes]
    exact .refl _

/-- Whatever happens, the course of the tasks goes on by a step. -/
theorem course_after (distinct : (moment.run.atGate.map Task.number).Nodup)
    (happening : Happening ν) :
    Course.Step (moment.course history)
      ((moment.after happening).course (history ++ moment.adds happening)) := by
  cases happening with
  | submit work => exact course_submit history moment work
  | openGate task result => exact course_openGate history distinct task result
  | dropHandle task => exact course_dropHandle history task
  | collect => exact .collects
  | begin place =>
      rw [adds, History.append_empty]
      cases found : moment.run.line[place]? with
      | none =>
          rw [show moment.after (.begin place) = moment by simp only [after, found]]
          exact .refl _
      | some turn =>
          rw [show moment.after (.begin place) = moment.beginTurn place turn by
            simp only [after, found]]
          exact course_begin history found
  | goOn place =>
      cases found : moment.busy[place]? with
      | none =>
          have becomes : (moment.after (.goOn place)).course
              (history ++ moment.adds (.goOn place)) = moment.course history := by
            rw [show moment.after (.goOn place) = moment by simp only [after, found], adds, found]
            exact congrArg moment.course history.append_empty
          rw [becomes]
          exact .refl _
      | some activity =>
          rw [show moment.after (.goOn place) = moment.goOn place activity by
            simp only [after, found], adds, found]
          exact course_goOn history found

end Moment

end PeerLink.Throttle
