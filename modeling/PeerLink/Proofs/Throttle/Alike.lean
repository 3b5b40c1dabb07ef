import Mathlib.Data.List.Forall2
import PeerLink.Proofs.Throttle.Settling

/-!
Contract: runs that differ in how work ends and in which handles are dropped.

Two units of work are alike if they submit alike work and wait at their gates alike; they may return or
panic once they have submitted it, and return what they like. Two runs are alike if alike tasks stand in
the same places. The handles and the ends that were delivered play no part in that, so a run that goes
on as another one does stays alike to it.

Owns: alike work, tasks and runs, and that each operation of a run keeps runs alike.

Does not own: what holds of whole runs that are alike.
-/

namespace PeerLink.Throttle

variable {ν : Type}

/-- Work that submits the same and waits alike; only how it ends on its own may differ. -/
inductive Pace.Alike : Pace → Pace → Prop where
  | same (pace : Pace) : Alike pace pace
  | panicsInstead : Alike .instant .panics
  | returnsInstead : Alike .panics .instant

inductive Work.Alike : Work ν → Work ν → Prop where
  | unit {pace otherPace : Pace} {children others : List (Work ν)} (value otherValue : ν)
      (kept otherKept : Bool) (paces : pace.Alike otherPace)
      (submissions : List.Forall₂ Work.Alike children others) :
      Alike (.unit pace value kept children) (.unit otherPace otherValue otherKept others)

namespace Work.Alike

variable {work other : Work ν}

theorem submits (alike : work.Alike other) :
    List.Forall₂ Work.Alike work.submits other.submits := by
  obtain @⟨pace, otherPace, children, others, _, _, _, _, paces, submissions⟩ := alike
  cases paces with
  | same => cases pace <;> first | exact submissions | exact .nil
  | panicsInstead | returnsInstead => exact submissions

theorem gated_iff (alike : work.Alike other) : work.pace = .gated ↔ other.pace = .gated := by
  obtain ⟨_, _, _, _, paces, -⟩ := alike
  cases paces <;> simp [Work.pace]

theorem panicsEarly_iff (alike : work.Alike other) :
    work.pace = .panicsEarly ↔ other.pace = .panicsEarly := by
  obtain ⟨_, _, _, _, paces, -⟩ := alike
  cases paces <;> simp [Work.pace]

end Work.Alike

structure Task.Alike (task other : Task ν) : Prop where
  number : task.number = other.number
  work : task.work.Alike other.work

inductive Turn.Alike : Turn ν → Turn ν → Prop where
  | start {task other : Task ν} (tasks : task.Alike other) : Alike (.start task) (.start other)
  | finish {task other : Task ν} (tasks : task.Alike other) (ending otherEnding : Ending ν) :
      Alike (.finish task ending) (.finish other otherEnding)

/-- Whether an entry is about the start of a task or about a submission. -/
def RunEntry.launches : RunEntry → Bool
  | started _ | submitted _ => true
  | finished _ => false

/-- The starts of tasks and the submissions from inside tasks, in order. -/
def Run.launches (run : Run ν) : List RunEntry := run.account.filter RunEntry.launches

/-- Alike tasks stand in the same places, and the same has been launched and has ended. -/
structure Run.Alike (run other : Run ν) : Prop where
  limit : run.queue.limit = other.queue.limit
  inFlight : run.queue.inFlight = other.queue.inFlight
  pending : List.Forall₂ Task.Alike run.queue.pending other.queue.pending
  line : List.Forall₂ Turn.Alike run.line other.line
  atGate : List.Forall₂ Task.Alike run.atGate other.atGate
  submitted : run.submitted = other.submitted
  ended : run.endings.map Prod.fst = other.endings.map Prod.fst
  launches : run.launches = other.launches

namespace Run.Alike

variable {run other : Run ν} {task otherTask : Task ν} {work otherWork : Work ν}

theorem ofLimit (requested : Nat) : (Run.ofLimit requested : Run ν).Alike (.ofLimit requested) :=
  ⟨rfl, rfl, .nil, .nil, .nil, rfl, rfl, rfl⟩

theorem submit (alike : run.Alike other) (works : work.Alike otherWork) :
    (run.submit work).Alike (other.submit otherWork) := by
  obtain ⟨limit, inFlight, pending, line, atGate, submitted, ended, launches⟩ := alike
  have tasks : Task.Alike ⟨run.submitted, work⟩ ⟨other.submitted, otherWork⟩ := ⟨submitted, works⟩
  by_cases free : run.queue.inFlight < run.queue.limit
  · have otherFree : other.queue.inFlight < other.queue.limit := limit ▸ inFlight ▸ free
    rw [run.submit_of_free work free, other.submit_of_free otherWork otherFree]
    exact ⟨limit, congrArg (· + 1) inFlight, pending,
      List.rel_append line (.cons (.start tasks) .nil), atGate, congrArg (· + 1) submitted, ended,
      launches⟩
  · have taken : run.queue.limit ≤ run.queue.inFlight := Nat.le_of_not_lt free
    have otherTaken : other.queue.limit ≤ other.queue.inFlight := limit ▸ inFlight ▸ taken
    rw [run.submit_of_taken work taken, other.submit_of_taken otherWork otherTaken]
    exact ⟨limit, inFlight, List.rel_append pending (.cons tasks .nil), line, atGate,
      congrArg (· + 1) submitted, ended, launches⟩

theorem note (alike : run.Alike other) (entry : RunEntry) :
    (run.note entry).Alike (other.note entry) := by
  have launches : (run.note entry).launches = (other.note entry).launches := by
    rw [Run.launches, Run.note, List.filter_append, ← Run.launches, alike.launches, Run.launches,
      Run.launches, Run.note, List.filter_append]
  exact { alike with launches := launches }

/-- The submission is noted under the number that both runs give it. -/
theorem submitChild (alike : run.Alike other) (works : work.Alike otherWork) :
    ((run.submit work).note (.submitted run.submitted)).Alike
      ((other.submit otherWork).note (.submitted other.submitted)) := by
  rw [← alike.submitted]
  exact (alike.submit works).note _

theorem submitChildren (alike : run.Alike other) {children others : List (Work ν)}
    (works : List.Forall₂ Work.Alike children others) :
    (run.submitChildren children).Alike (other.submitChildren others) := by
  induction works generalizing run other with
  | nil => exact alike
  | cons child _ inductionHypothesis => exact inductionHypothesis (alike.submitChild child)

theorem giveBack (alike : run.Alike other) : run.giveBack.Alike other.giveBack := by
  obtain ⟨limit, inFlight, pending, line, atGate, submitted, ended, launches⟩ := alike
  generalize waiting : run.queue.pending = tasks at pending
  generalize otherWaiting : other.queue.pending = others at pending
  cases pending with
  | nil =>
      rw [run.giveBack_of_noneWaits waiting, other.giveBack_of_noneWaits otherWaiting]
      refine ⟨limit, congrArg (· - 1) inFlight, ?_, line, atGate, submitted, ended, launches⟩
      rw [waiting, otherWaiting]
      exact .nil
  | cons next rest =>
      rw [run.giveBack_of_waiting waiting, other.giveBack_of_waiting otherWaiting]
      exact ⟨limit, inFlight, rest, List.rel_append line (.cons (.start next) .nil), atGate, submitted,
        ended, launches⟩

/-- Only a task that returns notes its end, but that launches nothing. -/
theorem noteEnd (alike : run.Alike other) (task otherTask : Task ν) (ending otherEnding : Ending ν) :
    (run.noteEnd task ending).Alike (other.noteEnd otherTask otherEnding) := by
  have silent (run : Run ν) (task : Task ν) (ending : Ending ν) :
      (run.noteEnd task ending).launches = run.launches := by
    cases ending <;> simp [Run.noteEnd, Run.note, Run.launches, RunEntry.launches]
  obtain ⟨limit, inFlight, pending, line, atGate, submitted, ended, launches⟩ := alike
  constructor <;> simp only [Run.queue_noteEnd, Run.line_noteEnd, Run.atGate_noteEnd,
    Run.submitted_noteEnd, Run.endings_noteEnd, silent] <;> assumption

theorem deliver (alike : run.Alike other) (tasks : task.Alike otherTask)
    (ending otherEnding : Ending ν) :
    (run.deliver task ending).Alike (other.deliver otherTask otherEnding) := by
  have ended : (run.deliver task ending).endings.map Prod.fst =
      (other.deliver otherTask otherEnding).endings.map Prod.fst := by
    simp [Run.deliver, alike.ended, tasks.number]
  exact { alike with ended := ended }

/-- A task gives its slot back in the same way however it ends. -/
theorem finishAs (alike : run.Alike other) (tasks : task.Alike otherTask)
    (ending otherEnding : Ending ν) :
    (run.finishAs task ending).Alike (other.finishAs otherTask otherEnding) :=
  ((alike.noteEnd task otherTask ending otherEnding).giveBack).deliver tasks ending otherEnding

theorem wait (alike : run.Alike other) (tasks : task.Alike otherTask) :
    Run.Alike { run with atGate := run.atGate ++ [task] }
      { other with atGate := other.atGate ++ [otherTask] } :=
  { alike with atGate := List.rel_append alike.atGate (.cons tasks .nil) }

theorem start (alike : run.Alike other) (tasks : task.Alike otherTask) :
    (run.start task).Alike (other.start otherTask) := by
  have begun := (alike.note (.started task.number)).submitChildren tasks.work.submits
  rw [tasks.number] at begun
  rw [Run.start_eq, Run.start_eq, tasks.number, Run.endOrWait, Run.endOrWait]
  by_cases gated : task.work.pace = .gated
  · rw [Work.ending?_of_gated gated, Work.ending?_of_gated (tasks.work.gated_iff.mp gated)]
    exact begun.wait tasks
  · have ends {work : Work ν} (notGated : work.pace ≠ .gated) :
        ∃ ending, work.ending? none = some ending :=
      Option.ne_none_iff_exists'.mp fun undecided => notGated (Work.gated_of_ending? undecided)
    obtain ⟨ending, own⟩ := ends gated
    obtain ⟨otherEnding, otherOwn⟩ := ends fun otherGated => gated (tasks.work.gated_iff.mpr otherGated)
    rw [own, otherOwn]
    exact begun.finishAs tasks ending otherEnding

theorem take (alike : run.Alike other) {turn otherTurn : Turn ν} (turns : turn.Alike otherTurn) :
    (run.take turn).Alike (other.take otherTurn) := by
  cases turns with
  | start tasks => exact alike.start tasks
  | finish tasks ending otherEnding => exact alike.finishAs tasks ending otherEnding

theorem takeTurns (alike : run.Alike other) (turns : Nat) :
    (run.takeTurns turns).Alike (other.takeTurns turns) := by
  induction turns generalizing run other with
  | zero => exact alike
  | succ turns inductionHypothesis =>
      have lines := alike.line
      generalize line : run.line = left at lines
      generalize otherLine : other.line = right at lines
      cases lines with
      | nil =>
          simp only [Run.takeTurns, Run.advance?, line, otherLine]
          exact alike
      | @cons turn otherTurn rest otherRest turns rests =>
          simp only [Run.takeTurns, Run.advance?, line, otherLine]
          have taken : Run.Alike { run with line := rest } { other with line := otherRest } :=
            { alike with line := rests }
          exact inductionHypothesis (taken.take turns)

/-- Alike runs settle alike, whatever number of turns each of them counts. -/
theorem settle (alike : run.Alike other) : run.settle.Alike other.settle := by
  let enough := max run.work other.work
  rw [← (run.takeTurns_of_work_le (Nat.le_max_left _ _ : _ ≤ enough)).1,
    ← (other.takeTurns_of_work_le (Nat.le_max_right _ _ : _ ≤ enough)).1]
  exact alike.takeTurns enough

/-- A gate is found in both runs or in none. -/
theorem openGate (alike : run.Alike other) (number : Nat) (ending otherEnding : Ending ν) :
    (run.openGate number ending).2.Alike (other.openGate number otherEnding).2 := by
  have finds {gates others : List (Task ν)} (alike : List.Forall₂ Task.Alike gates others) :
      Option.Rel Task.Alike (gates.find? (·.number == number))
        (others.find? (·.number == number)) := by
    induction alike with
    | nil => exact .none
    | cons tasks _ inductionHypothesis =>
        rw [List.find?_cons, List.find?_cons, tasks.number]
        split
        · exact .some tasks
        · exact inductionHypothesis
  have found := finds alike.atGate
  have remaining : List.Forall₂ Task.Alike (run.atGate.filter (·.number != number))
      (other.atGate.filter (·.number != number)) :=
    List.rel_filter (fun _ _ tasks => by simp only [tasks.number]) alike.atGate
  rw [Run.openGate, Run.openGate]
  generalize run.atGate.find? (·.number == number) = standing at found
  generalize other.atGate.find? (·.number == number) = otherStanding at found
  cases found with
  | none => exact alike
  | some tasks =>
      exact { alike with
        atGate := remaining
        line := List.rel_append alike.line (.cons (.finish tasks ending otherEnding) .nil) }

end Run.Alike

end PeerLink.Throttle
