import PeerLink.Proofs.Throttle.Slots

/-!
Contract: tasks start in the order in which they were submitted.

Tasks are numbered as they are submitted, so the sequence of submissions is a range. As long as turns
begin in the order of the line, the tasks that began, those admitted after them and those that still
wait make up that range, in this order: a newcomer takes a free slot only while nothing waits.

Owns: the order of starts.

Does not own: how many tasks start.
-/

namespace PeerLink.Throttle

variable {ν : Type}

/-- The submitted tasks, in the order in which they begin. -/
def Places.queueOrder (places : Places) : List Nat :=
  places.started ++ places.spawned ++ places.waiting

theorem Places.Step.queueOrder {limit : Nat} {before later : Places} (step : Step True before later)
    (balanced : before.Balanced limit)
    (ordered : before.queueOrder = List.range before.submitted) :
    later.queueOrder = List.range later.submitted := by
  cases step with
  | stays running same => exact ordered
  | admits free =>
      have noneWaits : before.waiting = [] := balanced.waiting_eq_nil free
      simp only [Places.queueOrder, noneWaits, List.append_nil] at ordered ⊢
      rw [List.range_succ, ← ordered, List.append_assoc]
  | queues taken =>
      simp only [Places.queueOrder] at ordered ⊢
      rw [List.range_succ, ← ordered, ← List.append_assoc]
  | begins earlier task later running spawned isFirst joins =>
      simp only [Places.queueOrder, spawned, isFirst trivial, List.nil_append] at ordered ⊢
      rw [← ordered]
      simp only [List.append_assoc, List.cons_append, List.nil_append]
  | passes task running next rest leaves waiting =>
      simp only [Places.queueOrder, waiting] at ordered ⊢
      rw [← ordered]
      simp only [List.append_assoc, List.singleton_append]
  | frees task running leaves noneWaits => exact ordered

/-- The tasks that began, those in the line and those that wait are the tasks submitted, in order. -/
structure Run.StartsInOrder (run : Run ν) : Prop where
  complete : run.startedTasks ++ run.spawnedTasks ++ run.waitingTasks = List.range run.submitted
  isPrefix : run.startedTasks <+: List.range run.submitted
  ascending : run.startedTasks.Pairwise (· < ·)

theorem Run.startsInOrder {run : Run ν}
    (complete : run.startedTasks ++ run.spawnedTasks ++ run.waitingTasks =
      List.range run.submitted) : run.StartsInOrder where
  complete := complete
  isPrefix := ⟨run.spawnedTasks ++ run.waitingTasks, by rw [← List.append_assoc, complete]⟩
  ascending := by
    have ascending := List.pairwise_lt_range (n := run.submitted)
    rw [← complete, List.append_assoc] at ascending
    exact (List.pairwise_append.mp ascending).1

namespace Moment

theorem queueOrder_play {limit : Nat} {moment : Moment ν} (happenings : List (Happening ν))
    (inOrder : ∀ happening ∈ happenings, happening.InOrder)
    (balanced : moment.places.Balanced limit)
    (ordered : moment.places.queueOrder = List.range moment.places.submitted) :
    (moment.play happenings).places.queueOrder =
      List.range (moment.play happenings).places.submitted := by
  induction happenings generalizing moment with
  | nil => exact ordered
  | cons happening rest inductionHypothesis =>
      have step : Places.Step True moment.places (moment.after happening).places :=
        step_after balanced.running_nodup happening fun _ => inOrder happening (by simp)
      refine inductionHypothesis ?_ (step.balanced balanced) (step.queueOrder balanced ordered)
      intro other member
      exact inOrder other (by simp [member])

/-- As long as turns begin in the order of the line, and so in every driven run, tasks start in the
order of submission, none of them twice, and none is lost. -/
theorem starts_in_order (requested : Nat) :
    (∀ happenings : List (Happening ν), (∀ happening ∈ happenings, happening.InOrder) →
      ((ofLimit requested).play happenings).run.StartsInOrder) ∧
    ∀ steps : List (Step ν), ((Run.ofLimit requested).steps steps).2.StartsInOrder := by
  have played (happenings : List (Happening ν))
      (inOrder : ∀ happening ∈ happenings, happening.InOrder) :
      ((ofLimit requested).play happenings).run.StartsInOrder :=
    Run.startsInOrder (queueOrder_play happenings inOrder (balanced_ofLimit requested) rfl)
  refine ⟨played, fun steps => ?_⟩
  obtain ⟨happenings, inOrder, reached⟩ := leads_steps (Run.ofLimit requested) steps
  have order := played happenings inOrder
  rw [show (ofLimit requested).play happenings = _ from reached] at order
  exact order

/-- One slot: task 0 submits task 2 after task 1 already waits, and panics; then task 1 starts, and
not the one that was submitted from inside. -/
def nestedSubmission : List (Happening Unit) :=
  [.submit (.unit .panics () true [.unit .instant () false []]),
    .submit (.unit .gated () false []),
    .begin 0, .goOn 0, .goOn 0, .goOn 0, .begin 0]

theorem starts_in_order_nestedSubmission :
    (∀ happening ∈ nestedSubmission, happening.InOrder) ∧
      ((ofLimit 1).play nestedSubmission).run.startedTasks = [0, 1] ∧
      ((ofLimit 1).play nestedSubmission).run.waitingTasks = [2] ∧
      ((ofLimit 1).play nestedSubmission).run.StartsInOrder := by
  have inOrder : ∀ happening ∈ nestedSubmission, happening.InOrder := by
    simp [nestedSubmission, Happening.InOrder]
  exact ⟨inOrder, rfl, rfl, (starts_in_order 1).1 nestedSubmission inOrder⟩

end Moment

end PeerLink.Throttle
