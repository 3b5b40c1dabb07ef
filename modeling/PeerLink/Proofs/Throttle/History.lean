import PeerLink.Proofs.Throttle.Interleaving

/-!
Contract: what was asked of a queue, and what was seen of its results.

A run forgets the work of the tasks that ended, and who was told what. A history keeps it: the work
submitted under each number, how the tasks at their gates were told to end, the handles that were
dropped and the results that were seen. It says of every task how its work ends, without a look at
the results that the run delivers.

Owns: how a unit of work ends, histories, and the history of an interleaving and of a driven run.

Does not own: that the results are the ends of the work.
-/

namespace PeerLink.Throttle

variable {ν : Type}

namespace Work

/-- The units of work that a unit submits in its turn. -/
def submits (work : Work ν) : List (Work ν) :=
  match work.pace with
  | .panicsEarly => []
  | .instant | .panics | .gated => work.children

/-- How a unit of work ends, given what it was told when its gate opened. A gated unit that was told
nothing has no end yet. -/
def ending? (work : Work ν) (told : Option (Ending ν)) : Option (Ending ν) :=
  match work.pace with
  | .instant => some (.returned work.value)
  | .panicsEarly | .panics => some .panicked
  | .gated => told

theorem ending?_of_gated {work : Work ν} (gated : work.pace = .gated) (told : Option (Ending ν)) :
    work.ending? told = told := by
  rw [ending?, gated]

theorem gated_of_ending? {work : Work ν} (undecided : work.ending? none = none) :
    work.pace = .gated := by
  cases pace : work.pace with
  | gated => rfl
  | instant | panicsEarly | panics =>
      rw [ending?, pace] at undecided
      cases undecided

end Work

theorem Task.firstStage_eq {task : Task ν} (notEarly : task.work.pace ≠ .panicsEarly) :
    task.firstStage = .submitting task.work.submits := by
  cases pace : task.work.pace <;> simp_all [firstStage, Work.submits]

/-- What was asked of a queue and seen of its results; the work of a task stands in the place of the
task's number. -/
structure History (ν : Type) where
  works : List (Work ν) := []
  /-- The tasks whose gate was opened, and how they were told to end. -/
  told : List (Nat × Ending ν) := []
  dropped : List Nat := []
  seen : List (Nat × Ending ν) := []
deriving Repr

namespace History

instance : Append (History ν) where
  append earlier later :=
    { works := earlier.works ++ later.works
      told := earlier.told ++ later.told
      dropped := earlier.dropped ++ later.dropped
      seen := earlier.seen ++ later.seen }

section Append

variable (earlier later : History ν)

@[simp] theorem works_append : (earlier ++ later).works = earlier.works ++ later.works := rfl

@[simp] theorem told_append : (earlier ++ later).told = earlier.told ++ later.told := rfl

@[simp] theorem dropped_append : (earlier ++ later).dropped = earlier.dropped ++ later.dropped := rfl

@[simp] theorem seen_append : (earlier ++ later).seen = earlier.seen ++ later.seen := rfl

theorem append_assoc (last : History ν) : earlier ++ later ++ last = earlier ++ (later ++ last) := by
  simp only [HAppend.hAppend, Append.append, mk.injEq]
  simp

@[simp] theorem empty_append : ({} : History ν) ++ later = later := rfl

@[simp] theorem append_empty : earlier ++ ({} : History ν) = earlier := by
  simp only [HAppend.hAppend, Append.append]
  simp

end Append

/-- How the work of a task ends, if that is settled. -/
def ending? (history : History ν) (task : Nat) : Option (Ending ν) :=
  history.works[task]?.bind fun work => work.ending? (history.told.lookup task)

/-- Whoever submitted the task kept its handle and has not dropped it. -/
def Keeps (history : History ν) (task : Nat) : Prop :=
  (∃ work, history.works[task]? = some work ∧ work.kept = true) ∧ task ∉ history.dropped

theorem Keeps.lt_length {history : History ν} {task : Nat} (keeps : history.Keeps task) :
    task < history.works.length := by
  obtain ⟨⟨work, submitted, -⟩, -⟩ := keeps
  exact (List.getElem?_eq_some_iff.mp submitted).1

/-- What is settled about the end of a task stays so. -/
theorem ending?_append {history : History ν} {task : Nat} {ending : Ending ν}
    (settled : history.ending? task = some ending) (more : History ν) :
    (history ++ more).ending? task = some ending := by
  obtain ⟨work, submitted, ends⟩ := Option.bind_eq_some_iff.mp settled
  have still : (history ++ more).works[task]? = some work := by
    rw [works_append, List.getElem?_append_left (List.getElem?_eq_some_iff.mp submitted).1]
    exact submitted
  refine Option.bind_eq_some_iff.mpr ⟨work, still, ?_⟩
  cases pace : work.pace with
  | gated =>
      rw [Work.ending?_of_gated pace] at ends ⊢
      rw [told_append, List.lookup_append, ends]
      rfl
  | instant | panicsEarly | panics =>
      simp only [Work.ending?, pace] at ends ⊢
      exact ends

end History

/-! ## The history of an interleaving -/

/-- The work that is submitted when the task in its turn goes on. -/
def Activity.submission? (activity : Activity ν) : Option (Work ν) :=
  match activity.stage with
  | .submitting (child :: _) => some child
  | .submitting [] | .ending _ | .delivering _ => none

namespace Moment

/-- What a happening adds to the history. -/
def adds (moment : Moment ν) : Happening ν → History ν
  | .submit work => { works := [work] }
  | .openGate task ending =>
      { told := if (moment.run.openGate task ending).1 then [(task, ending)] else [] }
  | .dropHandle task => { dropped := if (moment.run.dropHandle task).1 then [task] else [] }
  | .collect => { seen := moment.run.collect.1 }
  | .begin _ => {}
  | .goOn place => { works := (moment.busy[place]?.bind Activity.submission?).toList }

def history (moment : Moment ν) : List (Happening ν) → History ν
  | [] => {}
  | happening :: rest => moment.adds happening ++ (moment.after happening).history rest

theorem history_append (moment : Moment ν) (earlier later : List (Happening ν)) :
    moment.history (earlier ++ later) =
      moment.history earlier ++ (moment.play earlier).history later := by
  induction earlier generalizing moment with
  | nil => rfl
  | cons happening rest inductionHypothesis =>
      rw [List.cons_append, history, history, inductionHypothesis, History.append_assoc]
      rfl

end Moment

/-! ## The history of a driven run -/

/-- The work submitted in a turn. -/
def Turn.submits : Turn ν → List (Work ν)
  | start task => task.work.submits
  | finish _ _ => []

namespace Run

/-- The work submitted in the next turns of the line, so many at most. -/
def submitsIn : Nat → Run ν → List (Work ν)
  | 0, _ => []
  | turns + 1, run =>
      match run.line with
      | [] => []
      | turn :: rest => turn.submits ++ submitsIn turns ({ run with line := rest }.take turn)

/-- What an action adds to the history, before a turn is taken. -/
def adds (run : Run ν) : Action ν → History ν
  | .submit work times => { works := List.replicate times work }
  | .openGate task ending =>
      { told := if (run.openGate task ending).1 then [(task, ending)] else [] }
  | .dropHandle task => { dropped := if (run.dropHandle task).1 then [task] else [] }
  | .wait => {}

/-- What a step adds to the history: its action, the turns that follow it, and the results that are
seen after them. -/
def addsIn (run : Run ν) (step : Step ν) : History ν :=
  let acted := (run.perform step.action).2
  run.adds step.action ++
    ({ works := if step.settles then acted.submitsIn acted.work else [] } ++
      { seen := (run.step step).1.resolved })

def history (run : Run ν) : List (Step ν) → History ν
  | [] => {}
  | first :: rest => run.addsIn first ++ (run.step first).2.history rest

theorem history_append (run : Run ν) (earlier later : List (Step ν)) :
    run.history (earlier ++ later) = run.history earlier ++ (run.steps earlier).2.history later := by
  induction earlier generalizing run with
  | nil => rfl
  | cons first rest inductionHypothesis =>
      rw [List.cons_append, history, history, inductionHypothesis, History.append_assoc]
      rfl

/-- The part of a first turn that comes after the submissions: the task ends or waits at its gate. -/
def endOrWait (run : Run ν) (task : Task ν) : Run ν :=
  match task.work.ending? none with
  | some ending => run.finishAs task ending
  | none => { run with atGate := run.atGate ++ [task] }

theorem start_eq (run : Run ν) (task : Task ν) :
    run.start task =
      ((run.note (.started task.number)).submitChildren task.work.submits).endOrWait task := by
  cases pace : task.work.pace <;>
    simp [start, endOrWait, Work.submits, Work.ending?, pace, submitChildren]

end Run

end PeerLink.Throttle
