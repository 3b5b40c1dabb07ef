import Mathlib.Data.List.Nodup
import Mathlib.Data.List.Range
import PeerLink.Proofs.Throttle.Driven

/-!
Contract: the books of a queue balance.

`Places.Balanced` is the invariant of all steps between places: every submitted task is in exactly
one place, the slots taken are those of the admitted tasks, and a task waits only while every slot is
taken. The number of slots taken and of tasks waiting is then a function of how many tasks were
submitted and how many gave their slot back. The queue's own count of submissions is checked against
the history.

Owns: the invariant, the count of submissions, and the balance in every moment and in every driven
run.

Does not own: the order in which tasks start.
-/

namespace PeerLink.Throttle

variable {ν : Type}

structure Places.Balanced (limit : Nat) (places : Places) : Prop where
  limit_eq : places.limit = limit
  /-- Every submitted task is in exactly one place. -/
  placed : ∀ task,
    places.released.count task + places.running.count task + places.spawned.count task +
      places.waiting.count task = if task < places.submitted then 1 else 0
  begun : ∀ task, places.started.count task =
    places.released.count task + places.running.count task
  slots : places.inFlight = places.running.length + places.spawned.length
  bounded : places.inFlight ≤ limit
  full : places.waiting ≠ [] → places.inFlight = limit

namespace Places

variable {inOrder : Prop} {limit : Nat} {before later places : Places}

/-- A newcomer that finds a free slot overtakes nobody. -/
theorem Balanced.waiting_eq_nil (balanced : places.Balanced limit)
    (free : places.inFlight < places.limit) : places.waiting = [] := by
  by_contra waits
  have taken := balanced.full waits
  have limit_eq := balanced.limit_eq
  omega

/-- One step keeps the balance. -/
theorem Step.balanced (step : Step inOrder before later) (balanced : before.Balanced limit) :
    later.Balanced limit := by
  have noneWaits := balanced.waiting_eq_nil
  obtain ⟨limit_eq, placed, begun, slots, bounded, full⟩ := balanced
  cases step with
  | stays running same =>
      refine ⟨limit_eq, ?_, ?_, same.length_eq ▸ slots, bounded, full⟩ <;> intro task
      · rw [← same.count_eq task]
        exact placed task
      · rw [← same.count_eq task]
        exact begun task
  | admits free =>
      refine ⟨limit_eq, ?_, begun, ?_, ?_, fun waits => absurd (noneWaits free) waits⟩
      · intro task
        have once := placed task
        simp only [List.count_append, List.count_singleton, beq_iff_eq] at once ⊢
        split_ifs at once ⊢ <;> omega
      · simp only [List.length_append, List.length_singleton]
        omega
      · exact limit_eq ▸ free
  | queues taken =>
      refine ⟨limit_eq, ?_, begun, slots, bounded, fun _ => ?_⟩
      · intro task
        have once := placed task
        simp only [List.count_append, List.count_singleton, beq_iff_eq] at once ⊢
        split_ifs at once ⊢ <;> omega
      · exact Nat.le_antisymm bounded (limit_eq ▸ taken)
  | begins earlier task later running spawned isFirst joins =>
      have joined := joins.length_eq
      rw [spawned] at slots
      simp only [List.length_append, List.length_cons] at slots joined
      refine ⟨limit_eq, ?_, ?_, ?_, bounded, full⟩
      · intro other
        have once := placed other
        have count := joins.count_eq other
        rw [spawned] at once
        simp only [List.count_append, List.count_cons] at once count ⊢
        omega
      · intro other
        have once := begun other
        have count := joins.count_eq other
        simp only [List.count_append, List.count_cons, List.count_nil] at once count ⊢
        omega
      · simp only [List.length_append]
        omega
  | passes task running next rest leaves waiting =>
      have left := leaves.length_eq
      have taken := full (by rw [waiting]; exact List.cons_ne_nil next rest)
      rw [List.length_cons] at left
      refine ⟨limit_eq, ?_, ?_, ?_, bounded, fun _ => taken⟩
      · intro other
        have once := placed other
        have count := leaves.count_eq other
        rw [waiting] at once
        simp only [List.count_append, List.count_cons, List.count_nil] at once count ⊢
        omega
      · intro other
        have once := begun other
        have count := leaves.count_eq other
        simp only [List.count_append, List.count_cons, List.count_nil] at once count ⊢
        omega
      · simp only [List.length_append, List.length_singleton]
        omega
  | frees task running leaves noneWaits =>
      have left := leaves.length_eq
      rw [List.length_cons] at left
      refine ⟨limit_eq, ?_, ?_, ?_, ?_, fun waits => absurd noneWaits waits⟩
      · intro other
        have once := placed other
        have count := leaves.count_eq other
        simp only [List.count_append, List.count_cons, List.count_nil] at once count ⊢
        omega
      · intro other
        have once := begun other
        have count := leaves.count_eq other
        simp only [List.count_append, List.count_cons, List.count_nil] at once count ⊢
        omega
      · show before.inFlight - 1 = running.length + before.spawned.length
        omega
      · exact Nat.le_trans (Nat.sub_le _ 1) bounded

/-! ## What follows from the balance -/

theorem Balanced.running_nodup (balanced : places.Balanced limit) : places.running.Nodup := by
  rw [List.nodup_iff_count_le_one]
  intro task
  have once := balanced.placed task
  split_ifs at once <;> omega

theorem Balanced.released_nodup (balanced : places.Balanced limit) : places.released.Nodup := by
  rw [List.nodup_iff_count_le_one]
  intro task
  have once := balanced.placed task
  split_ifs at once <;> omega

theorem Balanced.mem_started_iff {task : Nat} (balanced : places.Balanced limit) :
    task ∈ places.started ↔ task ∈ places.released ∨ task ∈ places.running := by
  have begun := balanced.begun task
  rw [← List.count_pos_iff, ← List.count_pos_iff, ← List.count_pos_iff]
  omega

theorem Balanced.started_nodup (balanced : places.Balanced limit) : places.started.Nodup := by
  rw [List.nodup_iff_count_le_one]
  intro task
  have once := balanced.placed task
  have begun := balanced.begun task
  split_ifs at once <;> omega

/-- Every submitted task is in one of the places. -/
theorem Balanced.placed_perm (balanced : places.Balanced limit) :
    (places.released ++ places.running ++ places.spawned ++ places.waiting).Perm
      (List.range places.submitted) := by
  rw [List.perm_iff_count]
  intro task
  rw [List.count_range, ← balanced.placed task]
  simp only [List.count_append]

/-- A task that gave its slot back has none. -/
theorem Balanced.slotless_of_released {task : Nat} (balanced : places.Balanced limit)
    (released : task ∈ places.released) : task ∉ places.running ++ places.spawned := by
  have once := balanced.placed task
  have counted : 0 < places.released.count task := List.count_pos_iff.mpr released
  rw [← List.count_eq_zero, List.count_append]
  split_ifs at once <;> omega

/-- The running tasks are those that began and have not given their slot back. -/
theorem Balanced.running_perm (balanced : places.Balanced limit) :
    (places.started.filter fun task => task ∉ places.released).Perm places.running := by
  rw [List.perm_iff_count]
  intro task
  have once := balanced.placed task
  have begun := balanced.begun task
  by_cases isReleased : task ∈ places.released
  · have counted : 0 < places.released.count task := List.count_pos_iff.mpr isReleased
    rw [List.count_eq_zero.mpr fun member => (by simpa [isReleased] using List.mem_filter.mp member)]
    split_ifs at once <;> omega
  · have counted : places.released.count task = 0 := List.count_eq_zero.mpr isReleased
    rw [List.count_filter (by simpa using isReleased)]
    omega

theorem Balanced.submitted_eq (balanced : places.Balanced limit) :
    places.submitted = places.released.length + places.inFlight + places.waiting.length := by
  have total := balanced.placed_perm.length_eq
  have slots := balanced.slots
  simp only [List.length_append, List.length_range] at total
  omega

/-- As many slots are taken as tasks are outstanding, as far as there are slots. -/
theorem Balanced.inFlight_eq (balanced : places.Balanced limit) :
    places.inFlight = min limit (places.submitted - places.released.length) := by
  have submitted := balanced.submitted_eq
  have bounded := balanced.bounded
  cases waiting : places.waiting with
  | nil =>
      rw [waiting, List.length_nil] at submitted
      omega
  | cons next rest =>
      have taken := balanced.full (by rw [waiting]; exact List.cons_ne_nil next rest)
      omega

end Places

/-! ## The balance in every moment -/

namespace Moment

theorem balanced_ofLimit (requested : Nat) :
    (ofLimit requested : Moment ν).places.Balanced (max 1 requested) where
  limit_eq := rfl
  placed := by simp [places, ofLimit, Run.ofLimit, runningTasks, Run.runningTasks,
    Run.spawnedTasks, Run.waitingTasks, Queue.ofLimit]
  begun := by simp [places, ofLimit, Run.ofLimit, runningTasks, Run.runningTasks,
    Run.startedTasks]
  slots := by simp [places, ofLimit, Run.ofLimit, runningTasks, Run.runningTasks,
    Run.spawnedTasks, Queue.ofLimit]
  bounded := Nat.zero_le _
  full := by simp [places, ofLimit, Run.ofLimit, Run.waitingTasks, Queue.ofLimit]

/-- Whatever happens, and in whatever order, the books balance. -/
theorem balanced_play {limit : Nat} {moment : Moment ν} (balanced : moment.places.Balanced limit)
    (happenings : List (Happening ν)) : (moment.play happenings).places.Balanced limit := by
  induction happenings generalizing moment with
  | nil => exact balanced
  | cons happening rest inductionHypothesis =>
      have step : Places.Step False moment.places (moment.after happening).places :=
        step_after balanced.running_nodup happening False.elim
      exact inductionHypothesis (step.balanced balanced)

/-! ## Every submission is in the history -/

theorem submitted_goOn (moment : Moment ν) (place : Nat) (activity : Activity ν) :
    (moment.goOn place activity).run.submitted =
      moment.run.submitted + activity.submission?.toList.length := by
  obtain ⟨task, stage⟩ := activity
  cases stage with
  | submitting children =>
      cases children with
      | nil =>
          cases pace : task.work.pace <;> simp [goOn, endSubmitting, pace, Activity.submission?]
      | cons child rest => simp [goOn, Run.note, Activity.submission?]
  | ending ending => simp [goOn, Activity.submission?]
  | delivering ending => simp [goOn, Run.deliver, Activity.submission?]

/-- A happening submits as many tasks as it adds work to the history. -/
theorem submitted_after (moment : Moment ν) (happening : Happening ν) :
    (moment.after happening).run.submitted =
      moment.run.submitted + (moment.adds happening).works.length := by
  cases happening with
  | submit work => exact moment.run.submitted_submit work
  | openGate task ending =>
      simp only [after, adds, Run.openGate]
      split <;> rfl
  | dropHandle task => rfl
  | collect => rfl
  | begin place =>
      cases found : moment.run.line[place]? with
      | none => simp [after, adds, found]
      | some turn => cases turn <;> simp [after, adds, found, beginTurn, Run.note]
  | goOn place =>
      cases found : moment.busy[place]? with
      | none => simp [after, adds, found]
      | some activity => simp [after, adds, found, submitted_goOn]

theorem submitted_play (moment : Moment ν) (happenings : List (Happening ν)) :
    (moment.play happenings).run.submitted =
      moment.run.submitted + (moment.history happenings).works.length := by
  induction happenings generalizing moment with
  | nil => rfl
  | cons happening rest inductionHypothesis =>
      calc ((moment.after happening).play rest).run.submitted
        _ = (moment.after happening).run.submitted +
              ((moment.after happening).history rest).works.length := inductionHypothesis _
        _ = moment.run.submitted + (moment.history (happening :: rest)).works.length := by
            rw [submitted_after, history, History.works_append, List.length_append, Nat.add_assoc]

/-! ## The state of the slots -/

/-- The state of the slots of a moment, by the work submitted so far and the tasks that gave their
slot back. -/
structure InBalance (limit : Nat) (history : History ν) (moment : Moment ν) : Prop where
  /-- Every piece of work that was submitted, from outside or in a turn, counts as a task. -/
  submitted_eq : moment.run.submitted = history.works.length
  /-- No task gives its slot back twice. -/
  released_nodup : moment.released.Nodup
  released_le : moment.released.length ≤ moment.run.submitted
  inFlight_eq : moment.run.queue.inFlight =
    min limit (moment.run.submitted - moment.released.length)
  queued_eq : moment.run.queue.queued =
    moment.run.submitted - moment.released.length - moment.run.queue.inFlight
  underway_le : moment.underway.length ≤ limit
  /-- A task waits only while every slot is taken. -/
  full : 0 < moment.run.queue.queued → moment.run.queue.inFlight = limit
  /-- Whoever is about to give a slot back finds one to subtract. -/
  release_pos : ∀ activity ∈ moment.busy, ∀ ending, activity.stage = .ending ending →
    0 < moment.run.queue.inFlight

theorem inBalance {limit : Nat} {history : History ν} {moment : Moment ν}
    (balanced : moment.places.Balanced limit)
    (numbered : moment.run.submitted = history.works.length) :
    moment.InBalance limit history := by
  have submitted : moment.run.submitted =
      moment.released.length + moment.run.queue.inFlight + moment.run.queue.queued := by
    have counted := balanced.submitted_eq
    simp only [places, Run.waitingTasks, List.length_map] at counted
    exact counted
  have slots : moment.run.queue.inFlight =
      moment.runningTasks.length + moment.run.spawnedTasks.length := balanced.slots
  refine ⟨numbered, balanced.released_nodup, by omega, balanced.inFlight_eq, by omega, ?_, ?_, ?_⟩
  · have running : moment.underway.length = moment.runningTasks.length :=
      balanced.running_perm.length_eq
    have bounded : moment.run.queue.inFlight ≤ limit := balanced.bounded
    omega
  · intro waits
    refine balanced.full ?_
    intro noneWaits
    have empty : moment.run.queue.queued = 0 := by
      rw [Queue.queued, ← List.length_map Task.number]
      exact congrArg List.length noneWaits
    omega
  · intro activity member ending isEnding
    have holds : activity.task.number ∈ moment.busy.filterMap Activity.holder? :=
      List.mem_filterMap.mpr ⟨activity, member, by simp [Activity.holder?, isEnding]⟩
    have running : 0 < moment.runningTasks.length :=
      List.length_pos_of_mem (List.mem_append_left _ holds)
    omega

/-- In every moment of every interleaving, and in every state of a driven run, the number of slots
taken and the number of tasks waiting follow from how often work was submitted and how many tasks
gave their slot back; no more tasks are under way than there are slots, none waits while a slot is
free, and no slot is given back that was not taken. -/
theorem slots_in_balance (requested : Nat) :
    (∀ happenings : List (Happening ν),
      ((ofLimit requested).play happenings).InBalance (max 1 requested)
        ((ofLimit requested).history happenings)) ∧
    ∀ steps : List (Step ν),
      (atRest ((Run.ofLimit requested).steps steps).2).InBalance (max 1 requested)
        ((Run.ofLimit requested).history steps) := by
  have played (happenings : List (Happening ν)) :
      ((ofLimit requested).play happenings).InBalance (max 1 requested)
        ((ofLimit requested).history happenings) := by
    refine inBalance (balanced_play (balanced_ofLimit requested) happenings) ?_
    exact (submitted_play (ofLimit requested) happenings).trans (Nat.zero_add _)
  refine ⟨played, fun steps => ?_⟩
  obtain ⟨happenings, -, reached, sameHistory⟩ := reaches_steps (Run.ofLimit requested) steps
  rw [← reached, ← sameHistory]
  exact played happenings

end Moment

end PeerLink.Throttle
