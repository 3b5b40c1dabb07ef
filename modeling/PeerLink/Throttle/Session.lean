import PeerLink.Throttle.Run

/-!
Contract: a run driven from outside, step by step.

Owns: the steps, and the report after each one: the answer, the new part of the account, the handles
that resolved and the state of the queue.

Does not own: the rules of a run.
-/

namespace PeerLink.Throttle

inductive Action (ν : Type) where
  /-- Submits a unit of work so many times. -/
  | submit (work : Work ν) (times : Nat)
  /-- Opens a task's gate and tells the task how to end. -/
  | openGate (task : Nat) (ending : Ending ν)
  | dropHandle (task : Nat)
  /-- Nothing but the turns that follow. -/
  | wait
deriving Repr

/-- An action, and whether the line of turns is emptied after it. -/
structure Step (ν : Type) where
  action : Action ν
  settles : Bool := true
deriving Repr

inductive Answer where
  | numbers (tasks : List Nat)
  | found (found : Bool)
  | nothing
deriving DecidableEq, Repr

structure Report (ν : Type) where
  answer : Answer
  account : List RunEntry
  resolved : List (Nat × Ending ν)
  limit : Nat
  inFlight : Nat
  queued : Nat
  debugText : String
deriving Repr

namespace Run

variable {ν : Type}

/-- Submits a unit of work so many times; the answer is the numbers of the tasks. -/
def submitTimes (run : Run ν) (work : Work ν) : Nat → List Nat × Run ν
  | 0 => ([], run)
  | times + 1 =>
      let (numbers, later) := submitTimes (run.submit work) work times
      (run.submitted :: numbers, later)

/-- Does what an action asks, without taking a turn. -/
def perform (run : Run ν) : Action ν → Answer × Run ν
  | .submit work times =>
      let (numbers, later) := run.submitTimes work times
      (.numbers numbers, later)
  | .openGate task ending =>
      let (found, later) := run.openGate task ending
      (.found found, later)
  | .dropHandle task =>
      let (found, later) := run.dropHandle task
      (.found found, later)
  | .wait => (.nothing, run)

def step (run : Run ν) (step : Step ν) : Report ν × Run ν :=
  let (answer, acted) := run.perform step.action
  let settled := if step.settles then acted.settle else acted
  let (resolved, later) := settled.collect
  ({ answer := answer
     account := later.account.drop run.account.length
     resolved := resolved
     limit := later.queue.limit
     inFlight := later.queue.inFlight
     queued := later.queue.queued
     debugText := later.queue.debugText }, later)

def steps (run : Run ν) : List (Step ν) → List (Report ν) × Run ν
  | [] => ([], run)
  | first :: rest =>
      let (report, later) := run.step first
      let (reports, last) := later.steps rest
      (report :: reports, last)

end Run

end PeerLink.Throttle
