import PeerLink.Throttle.Queue
import PeerLink.Total

/-!
Contract: the life of the tasks submitted to one queue.

Admitted tasks take turns in one line: a task that is admitted joins its end, and a task whose gate
opens joins it again. In its turn a task runs until it ends or waits at its gate; on the way it may
submit further tasks. A task that ends, by a value or by a panic, first gives its slot back, which
admits the oldest waiting task, and then its result can be seen.

Owns: work as a finite tree of submissions, the run of a queue with its account, the handles that
wait for results, and settling: taking turns until the line is empty.

Does not own: what values are.
-/

namespace PeerLink.Throttle

/-- How a unit of work ends once its children are submitted. -/
inductive Pace where
  /-- It returns its value in the same turn. -/
  | instant
  /-- It panics before it submits anything. -/
  | panicsEarly
  /-- It panics after it has submitted its children. -/
  | panics
  /-- It waits at its gate, and ends as it is told when the gate opens. -/
  | gated
deriving DecidableEq, Repr

/-- A unit of work: how it ends, the value it returns on its own, whether its submitter keeps the
handle, and the work it submits to the same queue in its turn. -/
inductive Work (ν : Type) where
  | unit (pace : Pace) (value : ν) (kept : Bool) (children : List (Work ν))
deriving Repr

namespace Work

variable {ν : Type}

def pace : Work ν → Pace
  | unit pace _ _ _ => pace

def value : Work ν → ν
  | unit _ value _ _ => value

def kept : Work ν → Bool
  | unit _ _ kept _ => kept

def children : Work ν → List (Work ν)
  | unit _ _ _ children => children

mutual

def size : Work ν → Nat
  | unit _ _ _ children => 1 + sizeAll children

def sizeAll : List (Work ν) → Nat
  | [] => 0
  | work :: rest => work.size + sizeAll rest

end

end Work

inductive Ending (ν : Type) where
  | returned (value : ν)
  | panicked
deriving DecidableEq, Repr

/-- A submitted unit of work under its number; tasks are numbered in order of submission. -/
structure Task (ν : Type) where
  number : Nat
  work : Work ν
deriving Repr

inductive Turn (ν : Type) where
  /-- The first turn of an admitted task. -/
  | start (task : Task ν)
  /-- The turn after a task's gate opened. -/
  | finish (task : Task ν) (ending : Ending ν)
deriving Repr

/-- The units of work that a task stands for. -/
def Task.size {ν : Type} (task : Task ν) : Nat := task.work.size

/-- The units of work that are still to be started or to be ended in a place of the line. -/
def Turn.size {ν : Type} : Turn ν → Nat
  | start task => task.size
  | finish _ _ => 1

inductive RunEntry where
  | started (task : Nat)
  | submitted (task : Nat)
  | finished (task : Nat)
deriving DecidableEq, Repr

structure Run (ν : Type) where
  queue : Queue (Task ν)
  line : List (Turn ν) := []
  /-- Tasks that started and wait at their gate, the oldest first. -/
  atGate : List (Task ν) := []
  /-- How many tasks were ever submitted; the next one gets this number. -/
  submitted : Nat := 0
  /-- The results that were delivered, in order. -/
  endings : List (Nat × Ending ν) := []
  /-- The handles that are kept and have not been seen to resolve, in order of number. -/
  handles : List Nat := []
  account : List RunEntry := []
deriving Repr

namespace Run

variable {ν : Type}

/-- A run of an empty queue with the requested number of slots. -/
def ofLimit (requested : Nat) : Run ν := { queue := .ofLimit requested }

def note (run : Run ν) (entry : RunEntry) : Run ν := { run with account := run.account ++ [entry] }

/-- Puts an admitted task, if there is one, at the end of the line. -/
def enlist (run : Run ν) : Option (Task ν) → Run ν
  | some task => { run with line := run.line ++ [.start task] }
  | none => run

def submit (run : Run ν) (work : Work ν) : Run ν :=
  let (admitted, queue) := run.queue.offer ⟨run.submitted, work⟩
  { run with
    queue := queue
    submitted := run.submitted + 1
    handles := if work.kept then run.handles ++ [run.submitted] else run.handles }.enlist admitted

/-- Submits the children of a running task, noting each one. -/
def submitChildren (run : Run ν) (children : List (Work ν)) : Run ν :=
  children.foldl (fun run child => (run.submit child).note (.submitted run.submitted)) run

/-- Gives a slot back; the task it passes to, if there is one, joins the line. -/
def giveBack (run : Run ν) : Run ν :=
  let (next, queue) := run.queue.release
  { run with queue := queue }.enlist next

def deliver (run : Run ν) (task : Task ν) (ending : Ending ν) : Run ν :=
  { run with endings := run.endings ++ [(task.number, ending)] }

/-- Ends a task: its slot goes back first, then its result is delivered. -/
def conclude (run : Run ν) (task : Task ν) (ending : Ending ν) : Run ν :=
  run.giveBack.deliver task ending

/-- The end of a task's work; only a returning task notes that it finished. -/
def noteEnd (run : Run ν) (task : Task ν) : Ending ν → Run ν
  | .returned _ => run.note (.finished task.number)
  | .panicked => run

/-- The end of a task as it is told. -/
def finishAs (run : Run ν) (task : Task ν) (ending : Ending ν) : Run ν :=
  (run.noteEnd task ending).conclude task ending

def start (run : Run ν) (task : Task ν) : Run ν :=
  let begun := run.note (.started task.number)
  match task.work.pace with
  | .panicsEarly => begun.finishAs task .panicked
  | .panics => (begun.submitChildren task.work.children).finishAs task .panicked
  | .instant => (begun.submitChildren task.work.children).finishAs task (.returned task.work.value)
  | .gated =>
      let waiting := begun.submitChildren task.work.children
      { waiting with atGate := waiting.atGate ++ [task] }

def take (run : Run ν) : Turn ν → Run ν
  | .start task => run.start task
  | .finish task ending => run.finishAs task ending

def advance? (run : Run ν) : Option (Run ν) :=
  match run.line with
  | [] => none
  | turn :: rest => some ({ run with line := rest }.take turn)

/-- The turns still to be taken if no gate opens: one for each unit of work not yet started, and one
for each task past its gate. -/
def work (run : Run ν) : Nat :=
  total Turn.size run.line + total Task.size run.queue.pending

def takeTurns : Nat → Run ν → Run ν
  | 0, run => run
  | turns + 1, run =>
      match run.advance? with
      | none => run
      | some later => takeTurns turns later

/-- Takes turns until the line is empty. Each turn uses up one unit of the work counted by
`Run.work`, so that count is a sufficient number of turns. -/
def settle (run : Run ν) : Run ν := takeTurns run.work run

/-- Opens the gate of a task, which then ends as told. The answer says whether it stood there. -/
def openGate (run : Run ν) (number : Nat) (ending : Ending ν) : Bool × Run ν :=
  match run.atGate.find? (·.number == number) with
  | none => (false, run)
  | some task =>
      (true, { run with
        atGate := run.atGate.filter (·.number != number)
        line := run.line ++ [.finish task ending] })

/-- Drops a handle. The answer says whether it was still kept. -/
def dropHandle (run : Run ν) (number : Nat) : Bool × Run ν :=
  (run.handles.contains number, { run with handles := run.handles.filter (· != number) })

def result? (run : Run ν) (number : Nat) : Option (Ending ν) := run.endings.lookup number

/-- Looks at every kept handle, in order of number. Those that have resolved are given up, and the
answer is their results. -/
def collect (run : Run ν) : List (Nat × Ending ν) × Run ν :=
  (run.handles.filterMap fun number => (run.result? number).map fun ending => (number, ending),
    { run with handles := run.handles.filter fun number => (run.result? number).isNone })

end Run

end PeerLink.Throttle
