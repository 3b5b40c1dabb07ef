import PeerLink.Proofs.Throttle.History
import PeerLink.Proofs.Throttle.Places

/-!
Contract: a driven run is one of the interleavings.

Between its steps a driven run is at rest: no turn is under way, and a task has given its slot back
exactly if its result is delivered. `Moment.reaches_steps` shows that each state of a driven run is
reached by things that happen in order, and that these have the history of the run, so that whatever
holds in every moment holds of driven runs.

Owns: moments at rest, what leads to what, and that theorem.

Does not own: what holds in every moment.
-/

namespace PeerLink.Throttle

variable {ν : Type}

namespace Moment

/-- A run with no turn under way. -/
def atRest (run : Run ν) : Moment ν := { run := run, released := run.endings.map Prod.fst }

/-- One moment can follow another if turns begin in the order of the line. -/
def Leads (before later : Moment ν) : Prop :=
  ∃ happenings : List (Happening ν),
    (∀ happening ∈ happenings, happening.InOrder) ∧ before.play happenings = later

/-- One moment can follow another if turns begin in the order of the line, with this history in
between. -/
def Reaches (before : Moment ν) (history : History ν) (later : Moment ν) : Prop :=
  ∃ happenings : List (Happening ν),
    (∀ happening ∈ happenings, happening.InOrder) ∧ before.play happenings = later ∧
      before.history happenings = history

namespace Reaches

variable {first second third : Moment ν} {history more : History ν}

theorem leads (reaches : Reaches first history second) : Leads first second := by
  obtain ⟨happenings, ordered, played, -⟩ := reaches
  exact ⟨happenings, ordered, played⟩

theorem refl (moment : Moment ν) : Reaches moment {} moment := ⟨[], by simp, rfl, rfl⟩

theorem trans (earlier : Reaches first history second) (later : Reaches second more third) :
    Reaches first (history ++ more) third := by
  obtain ⟨before, beforeOrdered, rfl, rfl⟩ := earlier
  obtain ⟨after, afterOrdered, rfl, rfl⟩ := later
  refine ⟨before ++ after, ?_, List.foldl_append, first.history_append before after⟩
  intro happening member
  rcases List.mem_append.mp member with inBefore | inAfter
  · exact beforeOrdered happening inBefore
  · exact afterOrdered happening inAfter

theorem single {moment later : Moment ν} (happening : Happening ν) (ordered : happening.InOrder)
    (becomes : moment.after happening = later) (adds : moment.adds happening = history) :
    Reaches moment history later :=
  ⟨[happening], by simpa using ordered, becomes, by rw [Moment.history, adds]; exact history.append_empty⟩

/-- Something happens that the history does not show. -/
theorem silent {moment later : Moment ν} (happening : Happening ν) (ordered : happening.InOrder)
    (becomes : moment.after happening = later) (adds : moment.adds happening = {})
    (reaches : Reaches later history third) : Reaches moment history third :=
  (single happening ordered becomes adds).trans reaches

end Reaches

end Moment

/-! ## Results are delivered at the end of a turn only -/

section Endings

variable (run : Run ν)

@[simp] theorem Run.endings_submit (work : Work ν) : (run.submit work).endings = run.endings := by
  by_cases free : run.queue.inFlight < run.queue.limit
  · rw [run.submit_of_free work free]
  · rw [run.submit_of_taken work (Nat.le_of_not_lt free)]

@[simp] theorem Run.endings_submitChildren (children : List (Work ν)) :
    (run.submitChildren children).endings = run.endings := by
  induction children generalizing run with
  | nil => rfl
  | cons child rest inductionHypothesis =>
      exact (inductionHypothesis _).trans (run.endings_submit child)

@[simp] theorem Run.endings_giveBack : run.giveBack.endings = run.endings := by
  cases pending : run.queue.pending with
  | nil => rw [run.giveBack_of_noneWaits pending]
  | cons next rest => rw [run.giveBack_of_waiting pending]

@[simp] theorem Run.endings_finishAs (task : Task ν) (ending : Ending ν) :
    (run.finishAs task ending).endings = run.endings ++ [(task.number, ending)] := by
  cases ending <;> simp [Run.finishAs, Run.conclude, Run.deliver, Run.noteEnd, Run.note]

end Endings

/-! ## A whole turn -/

namespace Moment

theorem reaches_submitChildren (task : Task ν) (released : List Nat) (children : List (Work ν))
    (run : Run ν) :
    Reaches ⟨run, [⟨task, .submitting children⟩], released⟩ { works := children }
      ⟨run.submitChildren children, [⟨task, .submitting []⟩], released⟩ := by
  induction children generalizing run with
  | nil => exact Reaches.refl _
  | cons child rest inductionHypothesis =>
      have submits : Reaches ⟨run, [⟨task, .submitting (child :: rest)⟩], released⟩
          { works := [child] }
          ⟨(run.submit child).note (.submitted run.submitted), [⟨task, .submitting rest⟩],
            released⟩ := Reaches.single (.goOn 0) trivial rfl rfl
      exact submits.trans (inductionHypothesis _)

/-- A task whose work is over gives its slot back, and then its result is delivered. -/
theorem reaches_finishAs (run : Run ν) (task : Task ν) (ending : Ending ν) :
    Reaches ⟨run, [⟨task, .ending ending⟩], run.endings.map Prod.fst⟩ {}
      (atRest (run.finishAs task ending)) := by
  have released : atRest (run.finishAs task ending) =
      ⟨run.finishAs task ending, [], run.endings.map Prod.fst ++ [task.number]⟩ := by
    simp [atRest]
  rw [released]
  exact (Reaches.single (.goOn 0) trivial rfl rfl).silent (.goOn 0) trivial rfl rfl

/-- A task that has submitted its children ends or waits at its gate. -/
theorem reaches_endOrWait (run : Run ν) (task : Task ν)
    (notEarly : task.work.pace ≠ .panicsEarly) :
    Reaches ⟨run, [⟨task, .submitting []⟩], run.endings.map Prod.fst⟩ {}
      (atRest (run.endOrWait task)) := by
  cases pace : task.work.pace with
  | panicsEarly => exact absurd pace notEarly
  | panics =>
      rw [Run.endOrWait, Work.ending?, pace]
      refine Reaches.silent (.goOn 0) trivial ?_ rfl (reaches_finishAs run task .panicked)
      simp [after, goOn, endSubmitting, pace]
  | instant =>
      rw [Run.endOrWait, Work.ending?, pace]
      refine Reaches.silent (.goOn 0) trivial ?_ rfl
        (reaches_finishAs run task (.returned task.work.value))
      simp [after, goOn, endSubmitting, pace]
  | gated =>
      rw [Run.endOrWait, Work.ending?, pace]
      refine Reaches.single (.goOn 0) trivial ?_ rfl
      simp [after, goOn, endSubmitting, pace, atRest]

theorem reaches_start (run : Run ν) (task : Task ν) :
    Reaches ⟨run.note (.started task.number), [⟨task, task.firstStage⟩], run.endings.map Prod.fst⟩
      { works := task.work.submits } (atRest (run.start task)) := by
  let begun := run.note (.started task.number)
  rw [Run.start_eq]
  by_cases early : task.work.pace = .panicsEarly
  · have ends : Reaches ⟨begun, [⟨task, .ending .panicked⟩], run.endings.map Prod.fst⟩ {}
        (atRest (begun.finishAs task .panicked)) := reaches_finishAs begun task .panicked
    simpa [Run.endOrWait, Work.submits, Work.ending?, Task.firstStage, early, Run.submitChildren]
      using ends
  · have submits := reaches_submitChildren task (run.endings.map Prod.fst) task.work.submits begun
    have ends := reaches_endOrWait (begun.submitChildren task.work.submits) task early
    rw [Run.endings_submitChildren] at ends
    have both := submits.trans ends
    rw [History.append_empty] at both
    rw [Task.firstStage_eq early]
    exact both

/-! ## A driven run -/

theorem reaches_turn {run : Run ν} {turn : Turn ν} {rest : List (Turn ν)}
    (line : run.line = turn :: rest) :
    Reaches (atRest run) { works := turn.submits } (atRest ({ run with line := rest }.take turn)) := by
  cases turn with
  | start task =>
      refine Reaches.silent (.begin 0) rfl ?_ rfl (reaches_start { run with line := rest } task)
      simp [after, atRest, line, beginTurn]
  | finish task ending =>
      refine Reaches.silent (.begin 0) rfl ?_ rfl
        (reaches_finishAs { run with line := rest } task ending)
      simp [after, atRest, line, beginTurn]

theorem reaches_takeTurns (turns : Nat) (run : Run ν) :
    Reaches (atRest run) { works := run.submitsIn turns } (atRest (run.takeTurns turns)) := by
  induction turns generalizing run with
  | zero => exact Reaches.refl _
  | succ turns inductionHypothesis =>
      cases line : run.line with
      | nil =>
          simp only [Run.takeTurns, Run.advance?, Run.submitsIn, line]
          exact Reaches.refl _
      | cons turn rest =>
          simp only [Run.takeTurns, Run.advance?, Run.submitsIn, line]
          exact (reaches_turn line).trans (inductionHypothesis _)

theorem reaches_submit (run : Run ν) (work : Work ν) :
    Reaches (atRest run) { works := [work] } (atRest (run.submit work)) := by
  refine Reaches.single (.submit work) trivial ?_ rfl
  simp [after, atRest]

theorem reaches_submitTimes (run : Run ν) (work : Work ν) (times : Nat) :
    Reaches (atRest run) { works := List.replicate times work }
      (atRest (run.submitTimes work times).2) := by
  induction times generalizing run with
  | zero => exact Reaches.refl _
  | succ times inductionHypothesis =>
      exact (reaches_submit run work).trans (inductionHypothesis (run.submit work))

theorem reaches_perform (run : Run ν) (action : Action ν) :
    Reaches (atRest run) (run.adds action) (atRest (run.perform action).2) := by
  cases action with
  | submit work times => exact reaches_submitTimes run work times
  | openGate task ending =>
      refine Reaches.single (.openGate task ending) trivial ?_ rfl
      cases found : run.atGate.find? (·.number == task) <;>
        simp [after, atRest, Run.perform, Run.openGate, found]
  | dropHandle task => exact Reaches.single (.dropHandle task) trivial rfl rfl
  | wait => exact Reaches.refl _

theorem reaches_step (run : Run ν) (step : Step ν) :
    Reaches (atRest run) (run.addsIn step) (atRest (run.step step).2) := by
  have performed := reaches_perform run step.action
  have collected (settled : Run ν) :
      Reaches (atRest settled) { seen := settled.collect.1 } (atRest settled.collect.2) :=
    Reaches.single .collect trivial rfl rfl
  refine performed.trans ?_
  cases settles : step.settles with
  | true =>
      simp only [Run.step, settles, if_true]
      exact (reaches_takeTurns _ _).trans (collected _)
  | false =>
      simp only [Run.step, settles, Bool.false_eq_true, if_false]
      exact collected _

/-- Every state of a driven run is met in an interleaving whose turns begin in order, and which has the
same history. -/
theorem reaches_steps (run : Run ν) (steps : List (Step ν)) :
    Reaches (atRest run) (run.history steps) (atRest (run.steps steps).2) := by
  induction steps generalizing run with
  | nil => exact Reaches.refl _
  | cons first rest inductionHypothesis =>
      exact (reaches_step run first).trans (inductionHypothesis (run.step first).2)

theorem leads_steps (run : Run ν) (steps : List (Step ν)) :
    Leads (atRest run) (atRest (run.steps steps).2) :=
  (reaches_steps run steps).leads

end Moment

end PeerLink.Throttle
