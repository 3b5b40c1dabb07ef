import PeerLink.Proofs.Throttle.Order
import PeerLink.Proofs.Throttle.Results

/-!
Contract: settling comes to an end and leaves no slot unused.

What a run has still to do is counted by the units of work that have not begun, each with all that it
will submit, the tasks whose gates opened, and those at their gates. A turn uses up one of the first two
and leaves at most one task at its gate; opening a gate uses up one of the third. So the line is emptied
by finitely many turns, and gates can be opened finitely often. With an empty line a slot is taken only
by a task at its gate, so that a task which waits proves all slots taken by those.

Owns: the count, and what is left of a driven run when it has settled.

Does not own: the laws of slots and of results, which hold in every moment.
-/

namespace PeerLink.Throttle

variable {ν : Type}

/-! ## What is left to do -/

/-- What a run has still to do. -/
structure Load where
  /-- The units of work that have not begun, with those that they will submit. -/
  units : Nat
  /-- The tasks whose gates opened and that have not ended. -/
  finishing : Nat
  atGate : Nat

namespace Run

def load (run : Run ν) : Load where
  units := total Task.size run.unbegun
  finishing := (run.line.filterMap Turn.finishingTask?).length
  atGate := run.atGate.length

variable (run : Run ν)

theorem work_eq : run.work = run.load.units + run.load.finishing := by
  have lined (line : List (Turn ν)) : total Turn.size line =
      total Task.size (line.filterMap Turn.unbegun?) +
        (line.filterMap Turn.finishingTask?).length := by
    induction line with
    | nil => rfl
    | cons turn rest inductionHypothesis =>
        cases turn <;>
          simp only [total_cons, inductionHypothesis, Turn.size, Turn.unbegun?, Turn.finishingTask?,
            List.filterMap_cons, List.length_cons] <;> omega
  simp only [work, load, lined, unbegun, total_append]
  omega

@[simp] theorem load_note (entry : RunEntry) : (run.note entry).load = run.load := rfl

theorem load_submit (work : Work ν) :
    (run.submit work).load = { run.load with units := run.load.units + work.size } := by
  by_cases free : run.queue.inFlight < run.queue.limit
  · rw [run.submit_of_free work free]
    simp [load, unbegun, Turn.unbegun?, Turn.finishingTask?, Task.size]
    omega
  · rw [run.submit_of_taken work (Nat.le_of_not_lt free)]
    simp [load, unbegun, Task.size]
    omega

theorem load_submitChildren (children : List (Work ν)) :
    (run.submitChildren children).load =
      { run.load with units := run.load.units + Work.sizeAll children } := by
  induction children generalizing run with
  | nil => rfl
  | cons child rest inductionHypothesis =>
      have submitted := inductionHypothesis ((run.submit child).note (.submitted run.submitted))
      rw [load_note, load_submit, Nat.add_assoc, ← Work.sizeAll] at submitted
      exact submitted

theorem load_giveBack : run.giveBack.load = run.load := by
  cases pending : run.queue.pending with
  | nil => rw [run.giveBack_of_noneWaits pending, load, load, unbegun, unbegun]
  | cons next rest =>
      rw [run.giveBack_of_waiting pending]
      simp [load, unbegun, pending, Turn.unbegun?, Turn.finishingTask?]

@[simp] theorem load_finishAs (task : Task ν) (ending : Ending ν) :
    (run.finishAs task ending).load = run.load := by
  have ended : (run.noteEnd task ending).load = run.load := by cases ending <;> rfl
  exact (load_giveBack (run.noteEnd task ending)).trans ended

theorem sizeAll_submits_lt (work : Work ν) : Work.sizeAll work.submits < work.size := by
  obtain ⟨pace, value, kept, children⟩ := work
  rw [Work.size]
  cases pace <;> simp only [Work.submits, Work.pace, Work.children, Work.sizeAll] <;> omega

/-- A task that starts leaves what it submits to be done, and it may come to wait at its gate. -/
theorem load_start (task : Task ν) :
    (run.start task).load.units = run.load.units + Work.sizeAll task.work.submits ∧
      (run.start task).load.finishing = run.load.finishing ∧
      (run.start task).load.atGate ≤ run.load.atGate + 1 := by
  have submitted := load_submitChildren (run.note (.started task.number)) task.work.submits
  rw [load_note] at submitted
  rw [start_eq, endOrWait]
  split
  · rw [load_finishAs, submitted]
    exact ⟨rfl, rfl, Nat.le_succ _⟩
  · rw [load, Load.mk.injEq] at submitted
    obtain ⟨units, finishing, atGate⟩ := submitted
    refine ⟨units, finishing, ?_⟩
    simp only [load, List.length_append, List.length_singleton] at atGate ⊢
    omega

/-- Every turn leaves less to do, even if the task then waits at its gate. -/
theorem load_turn {turn : Turn ν} {rest : List (Turn ν)} (line : run.line = turn :: rest) :
    ({ run with line := rest }.take turn).work < run.work ∧
      ({ run with line := rest }.take turn).load.units +
          ({ run with line := rest }.take turn).load.atGate ≤
        run.load.units + run.load.atGate := by
  rw [work_eq, work_eq]
  cases turn with
  | start task =>
      obtain ⟨units, finishing, atGate⟩ := load_start { run with line := rest } task
      have less := sizeAll_submits_lt task.work
      simp only [take, units, finishing]
      simp only [load, unbegun, line, Turn.unbegun?, Turn.finishingTask?, List.filterMap_cons,
        List.cons_append, total_cons, Task.size] at atGate ⊢
      omega
  | finish task ending =>
      simp only [take, load_finishAs]
      simp only [load, unbegun, line, Turn.unbegun?, Turn.finishingTask?, List.filterMap_cons,
        List.length_cons]
      omega

/-- As many turns as there is work empty the line, and no more are ever taken. -/
theorem takeTurns_of_work_le {turns : Nat} (enough : run.work ≤ turns) :
    run.takeTurns turns = run.settle ∧ run.settle.line = [] := by
  have settles (fuel : Nat) (run : Run ν) (enough : run.work ≤ fuel) :
      (run.takeTurns fuel).line = [] ∧ ∀ more, run.work ≤ more →
        run.takeTurns more = run.takeTurns fuel := by
    induction fuel generalizing run with
    | zero =>
        cases line : run.line with
        | nil => exact ⟨line, fun more _ => by cases more <;> simp [takeTurns, advance?, line]⟩
        | cons turn rest =>
            have less := (run.load_turn line).1
            omega
    | succ fuel inductionHypothesis =>
        cases line : run.line with
        | nil =>
            refine ⟨by simp [takeTurns, advance?, line], fun more _ => ?_⟩
            cases more <;> simp [takeTurns, advance?, line]
        | cons turn rest =>
            have less := (run.load_turn line).1
            obtain ⟨empty, stable⟩ := inductionHypothesis ({ run with line := rest }.take turn)
              (by omega)
            refine ⟨by simpa only [takeTurns, advance?, line] using empty, fun more covers => ?_⟩
            obtain ⟨more, rfl⟩ : ∃ fewer, more = fewer + 1 := ⟨more - 1, by omega⟩
            simpa only [takeTurns, advance?, line] using stable more (by omega)
  obtain ⟨empty, stable⟩ := settles run.work run (Nat.le_refl _)
  exact ⟨stable turns enough, empty⟩

/-! ## Opening gates -/

/-- The gates that are still to be opened are fewer after one of them was, whatever it lets happen. -/
theorem gates_step {task : Nat} {ending : Ending ν} (found : (run.openGate task ending).1 = true) :
    (run.step ⟨.openGate task ending, true⟩).2.load.units +
        (run.step ⟨.openGate task ending, true⟩).2.load.atGate <
      run.load.units + run.load.atGate := by
  have settles (turns : Nat) (run : Run ν) :
      (run.takeTurns turns).load.units + (run.takeTurns turns).load.atGate ≤
        run.load.units + run.load.atGate := by
    induction turns generalizing run with
    | zero => exact Nat.le_refl _
    | succ turns inductionHypothesis =>
        cases line : run.line with
        | nil => simp [takeTurns, advance?, line]
        | cons turn rest =>
            have less := (run.load_turn line).2
            have after := inductionHypothesis ({ run with line := rest }.take turn)
            simp only [takeTurns, advance?, line]
            omega
  have opened : (run.openGate task ending).2.load.units + (run.openGate task ending).2.load.atGate <
      run.load.units + run.load.atGate := by
    cases isThere : run.atGate.find? (·.number == task) with
    | none => simp [openGate, isThere] at found
    | some standing =>
        have fewer : (run.atGate.filter (·.number != task)).length < run.atGate.length := by
          refine List.length_filter_lt_length_iff_exists.mpr
            ⟨standing, List.mem_of_find?_eq_some isThere, ?_⟩
          have isTask := List.find?_some isThere
          simpa using isTask
        simp only [openGate, isThere, load, unbegun, List.filterMap_append, Turn.unbegun?,
          List.filterMap_cons, List.filterMap_nil, List.append_nil]
        omega
  exact Nat.lt_of_le_of_lt (settles _ _) opened

/-! ## A settled run -/

theorem steps_concat (steps : List (Step ν)) (last : Step ν) :
    (run.steps (steps ++ [last])).2 = ((run.steps steps).2.step last).2 := by
  induction steps generalizing run with
  | nil => rfl
  | cons first rest inductionHypothesis => exact inductionHypothesis (run.step first).2

variable {run} in
theorem found_iff {task : Nat} {ending : Ending ν} :
    (run.openGate task ending).1 = true ↔ task ∈ run.atGate.map Task.number := by
  have stands : (run.atGate.find? (·.number == task)).isSome = true ↔
      task ∈ run.atGate.map Task.number := by
    rw [List.find?_isSome, List.mem_map]
    simp only [beq_iff_eq]
  rw [← stands, openGate]
  split <;> rename_i found <;> simp [found]

/-- The started tasks that wait for their gates to be opened. -/
def heldBack (run : Run ν) (history : History ν) : List Nat :=
  run.startedTasks.filter fun task =>
    history.works[task]?.any (·.pace = .gated) && (history.told.lookup task).isNone

/-- Every submitted task has run, and every handle that is kept was seen to resolve. -/
structure Finished (run : Run ν) (history : History ν) : Prop where
  started : run.startedTasks = List.range run.submitted
  ended : (run.endings.map Prod.fst).Perm (List.range run.submitted)
  resolved : ∀ task, history.Keeps task → task ∈ history.seen.map Prod.fst
  noneTaken : run.queue.inFlight = 0
  noneWaits : run.queue.queued = 0

/-- What is left of a run that has settled. -/
structure Settled (requested : Nat) (run : Run ν) (history : History ν) : Prop where
  lineEmpty : run.line = []
  /-- Every submitted task has ended, except those that are held back and those that wait for a slot. -/
  placed : (run.endings.map Prod.fst ++ run.heldBack history ++ run.waitingTasks).Perm
    (List.range run.submitted)
  inFlight : run.queue.inFlight = (run.heldBack history).length
  full : 0 < run.queue.queued → (run.heldBack history).length = max 1 requested
  /-- The gates that can be opened are those of the tasks held back. -/
  gates : ∀ task ending, (run.openGate task ending).1 = true ↔ task ∈ run.heldBack history
  finished : run.heldBack history = [] → run.Finished history

end Run

namespace Moment

variable {requested : Nat} {run : Run ν} {history : History ν}

/-- With an empty line the slots taken are those of the tasks at their gates. -/
theorem running_of_lineEmpty (lineEmpty : run.line = []) :
    (atRest run).runningTasks = run.atGate.map Task.number := by
  simp [runningTasks, atRest, Run.runningTasks, lineEmpty]

/-- The tasks held back are those at their gates: whatever else has started has ended. -/
theorem heldBack_perm {limit : Nat} (balanced : (atRest run).places.Balanced limit)
    (sound : ((atRest run).course history).Sound) (lineEmpty : run.line = []) :
    (run.heldBack history).Perm (run.atGate.map Task.number) := by
  have running : (atRest run).places.running = run.atGate.map Task.number :=
    running_of_lineEmpty lineEmpty
  have atGateDistinct : (run.atGate.map Task.number).Nodup := running ▸ balanced.running_nodup
  have heldDistinct : (run.heldBack history).Nodup := balanced.started_nodup.filter _
  refine (List.perm_ext_iff_of_nodup heldDistinct atGateDistinct).mpr ?_
  intro task
  have begun : task ∈ run.startedTasks ↔
      task ∈ run.endings.map Prod.fst ∨ task ∈ run.atGate.map Task.number := by
    rw [← running]
    exact balanced.mem_started_iff
  rw [Run.heldBack, List.mem_filter, begun, Bool.and_eq_true, Option.any_eq_true,
    Option.isNone_iff_eq_none]
  constructor
  · rintro ⟨ended | standing, ⟨work, submitted, gated⟩, untold⟩
    · -- A task that ended had an end of its own or was told one.
      obtain ⟨result, delivered, rfl⟩ := List.mem_map.mp ended
      have settled := sound.settled result (List.mem_append_right _ delivered)
      have noEnd : history.ending? result.1 = none := by
        rw [History.ending?, submitted, untold, Option.bind_some]
        exact Work.ending?_of_gated (by simpa using gated) none
      exact absurd (settled.symm.trans noEnd) (by simp)
    · exact standing
  · intro standing
    obtain ⟨gatedTask, isStanding, rfl⟩ := List.mem_map.mp standing
    have isOpen : gatedTask ∈ ((atRest run).course history).undecided ++
        ((atRest run).course history).atGate := List.mem_append_right _ isStanding
    exact ⟨.inr standing, ⟨gatedTask.work, sound.hasOpen.submitted gatedTask isOpen,
      by simpa using sound.gated gatedTask isStanding⟩, sound.hasOpen.untold gatedTask isOpen⟩

theorem settled_of_lineEmpty {happenings : List (Happening ν)}
    (inOrder : ∀ happening ∈ happenings, happening.InOrder)
    (reached : (ofLimit requested).play happenings = atRest run)
    (sameHistory : (ofLimit requested).history happenings = history) (lineEmpty : run.line = [])
    (looked : ∀ task ∈ run.handles, run.result? task = none) : run.Settled requested history := by
  have balanced := balanced_play (balanced_ofLimit (ν := ν) requested) happenings
  have sound := sound_play requested happenings
  have order := queueOrder_play happenings inOrder (balanced_ofLimit requested) rfl
  have kept := (resultsInOrder requested happenings).kept
  rw [sameHistory, reached] at sound kept
  rw [reached] at balanced order
  have held := heldBack_perm balanced sound lineEmpty
  have noneSpawned : run.spawnedTasks = [] := by rw [Run.spawnedTasks, lineEmpty, List.filterMap_nil]
  have running : (atRest run).places.running = run.atGate.map Task.number :=
    running_of_lineEmpty lineEmpty
  have inFlight : run.queue.inFlight = (run.heldBack history).length := by
    have slots : run.queue.inFlight = _ + run.spawnedTasks.length := balanced.slots
    rw [slots, running, noneSpawned, held.length_eq, List.length_nil, Nat.add_zero]
  have placed : (run.endings.map Prod.fst ++ run.heldBack history ++ run.waitingTasks).Perm
      (List.range run.submitted) := by
    have everyPlace : (run.endings.map Prod.fst ++ (atRest run).places.running ++ run.spawnedTasks ++
        run.waitingTasks).Perm (List.range run.submitted) := balanced.placed_perm
    rw [running, noneSpawned, List.append_nil] at everyPlace
    exact ((held.append_left _).append_right _).trans everyPlace
  have full (waits : 0 < run.queue.queued) : run.queue.inFlight = max 1 requested := by
    refine balanced.full fun none => ?_
    have noTask : run.queue.pending.map Task.number = [] := none
    rw [Queue.queued, List.map_eq_nil_iff.mp noTask] at waits
    exact absurd waits (Nat.lt_irrefl 0)
  refine ⟨lineEmpty, placed, inFlight, fun waits => inFlight ▸ full waits, ?_, ?_⟩
  · intro task ending
    rw [held.mem_iff]
    exact Run.found_iff
  · intro noneHeld
    have noneTaken : run.queue.inFlight = 0 := by rw [inFlight, noneHeld, List.length_nil]
    have noneWaits : run.queue.queued = 0 := by
      by_contra waits
      have taken := full (Nat.pos_of_ne_zero waits)
      omega
    have noneWaiting : run.waitingTasks = [] := by
      rw [Run.waitingTasks, List.length_eq_zero_iff.mp noneWaits, List.map_nil]
    rw [noneHeld, noneWaiting, List.append_nil, List.append_nil] at placed
    have started : run.startedTasks = List.range run.submitted := by
      have complete : run.startedTasks ++ run.spawnedTasks ++ run.waitingTasks =
          List.range run.submitted := order
      rwa [noneSpawned, noneWaiting, List.append_nil, List.append_nil] at complete
    refine ⟨started, placed, fun task keeps => ?_, noneTaken, noneWaits⟩
    refine (kept task keeps).resolve_right fun still => ?_
    have below : task < run.submitted := Nat.lt_of_lt_of_eq keeps.lt_length sound.numbered
    have delivered : task ∈ run.endings.map Prod.fst :=
      placed.mem_iff.mpr (List.mem_range.mpr below)
    exact lookup_ne_none_of_mem delivered (looked task still)

/-! ## Driven runs -/

/-- A driven run after a step that settles. -/
theorem settled_steps (requested : Nat) (steps : List (Step ν)) (action : Action ν) :
    ((Run.ofLimit requested).steps (steps ++ [⟨action, true⟩])).2.Settled requested
      ((Run.ofLimit requested).history (steps ++ [⟨action, true⟩])) := by
  obtain ⟨happenings, inOrder, reached, sameHistory⟩ :=
    reaches_steps (Run.ofLimit requested) (steps ++ [⟨action, true⟩])
  refine settled_of_lineEmpty inOrder reached sameHistory ?_ ?_
  · rw [Run.steps_concat]
    exact (Run.takeTurns_of_work_le _ (Nat.le_refl _)).2
  · rw [Run.steps_concat]
    intro task still
    exact Option.isNone_iff_eq_none.mp (List.mem_filter.mp still).2

/-- A run settles after finitely many turns. What has not ended then is held back at a gate or waits for
a slot; the slots taken are those of the tasks held back, and these are as many as there are slots as
soon as a task waits. Gates can be opened finitely often, and when no task is held back every task has
run, every handle that is kept has resolved, and no slot is taken. -/
theorem settling_leaves_no_slot_unused (requested : Nat) :
    (∀ run : Run ν, run.settle.line = [] ∧
      ∀ turns, run.work ≤ turns → run.takeTurns turns = run.settle) ∧
    (∀ (steps : List (Step ν)) (action : Action ν),
      ((Run.ofLimit requested).steps (steps ++ [⟨action, true⟩])).2.Settled requested
        ((Run.ofLimit requested).history (steps ++ [⟨action, true⟩]))) ∧
    WellFounded fun later before : Run ν => ∃ task ending,
      (before.openGate task ending).1 = true ∧
        later = (before.step ⟨.openGate task ending, true⟩).2 := by
  refine ⟨fun run => ?_, settled_steps requested, ?_⟩
  · exact ⟨(run.takeTurns_of_work_le (Nat.le_refl _)).2,
      fun turns enough => (run.takeTurns_of_work_le enough).1⟩
  · refine Subrelation.wf ?_ (measure fun run : Run ν => run.load.units + run.load.atGate).wf
    rintro later before ⟨task, ending, found, rfl⟩
    exact before.gates_step found

/-- One slot: task 0 is let go and task 1 waits at its gate, with the child of each behind it. -/
def twoGates : List (Step Unit) :=
  [⟨.submit (.unit .gated () true [.unit .panics () true []]) 2, true⟩,
    ⟨.openGate 0 (.returned ()), true⟩]

theorem settling_leaves_no_slot_unused_twoGates :
    ((Run.ofLimit 1).steps twoGates).2.heldBack ((Run.ofLimit 1).history twoGates) = [1] ∧
      ((Run.ofLimit 1).steps twoGates).2.waitingTasks = [2, 3] ∧
      ((Run.ofLimit 1).steps (twoGates ++ [⟨.openGate 1 .panicked, true⟩])).2.Finished
        ((Run.ofLimit 1).history (twoGates ++ [⟨.openGate 1 .panicked, true⟩])) ∧
      ((Run.ofLimit 1).submit (.unit .gated () true [])).work ≤ 3 ∧
      ((Run.ofLimit 1).submit (.unit .gated () true [])).takeTurns 3 =
        ((Run.ofLimit 1).submit (.unit .gated () true [])).settle := by
  obtain ⟨terminates, settled, -⟩ := settling_leaves_no_slot_unused (ν := Unit) 1
  exact ⟨rfl, rfl, (settled twoGates (.openGate 1 .panicked)).finished rfl, by decide,
    (terminates _).2 3 (by decide)⟩

end Moment

end PeerLink.Throttle
