import PeerLink.Proofs.Throttle.Alike

/-!
Contract: nobody waits for how a task ends, nor for who looks at its result.

Two runs to which alike things happen stay alike: whether work returns or panics at its end, which value
it returns and who drops a handle changes neither the slots nor the order of starts and submissions. A
handle that is kept in both is seen to resolve at the same time, as a result can be seen in both or in
none.

Owns: alike moments, scripts and interleavings, and the comparison of two whole runs.

Does not own: the results of one run by itself.
-/

namespace PeerLink.Throttle

variable {ν : Type}

/-! ## Lists that are alike place by place -/

section Lists

variable {α : Type} {related : α → α → Prop} {items others : List α}

theorem forall₂_getElem? (alike : List.Forall₂ related items others) (place : Nat) :
    Option.Rel related items[place]? others[place]? := by
  induction alike generalizing place with
  | nil => exact .none
  | cons first _ inductionHypothesis =>
      cases place with
      | zero => exact .some first
      | succ place => exact inductionHypothesis place

theorem forall₂_eraseIdx (alike : List.Forall₂ related items others) (place : Nat) :
    List.Forall₂ related (items.eraseIdx place) (others.eraseIdx place) := by
  rw [List.eraseIdx_eq_take_drop_succ, List.eraseIdx_eq_take_drop_succ]
  exact List.rel_append (List.forall₂_take place alike) (List.forall₂_drop (place + 1) alike)

theorem forall₂_set {new otherNew : α} (alike : List.Forall₂ related items others) (place : Nat)
    (news : related new otherNew) :
    List.Forall₂ related (items.set place new) (others.set place otherNew) := by
  induction alike generalizing place with
  | nil => exact .nil
  | cons first rest inductionHypothesis =>
      cases place with
      | zero => exact .cons news rest
      | succ place => exact .cons first (inductionHypothesis place)

end Lists

/-! ## Alike moments -/

inductive Stage.Alike : Stage ν → Stage ν → Prop where
  | submitting {children others : List (Work ν)} (works : List.Forall₂ Work.Alike children others) :
      Alike (.submitting children) (.submitting others)
  | ending (ending otherEnding : Ending ν) : Alike (.ending ending) (.ending otherEnding)
  | delivering (ending otherEnding : Ending ν) : Alike (.delivering ending) (.delivering otherEnding)

structure Activity.Alike (activity other : Activity ν) : Prop where
  task : activity.task.Alike other.task
  stage : activity.stage.Alike other.stage

/-- What happens to two runs that differ in endings and in dropped handles only. -/
inductive Happening.Alike : Happening ν → Happening ν → Prop where
  | submit {work other : Work ν} (works : work.Alike other) : Alike (.submit work) (.submit other)
  | openGate (task : Nat) (ending otherEnding : Ending ν) :
      Alike (.openGate task ending) (.openGate task otherEnding)
  | dropHandle (task otherTask : Nat) : Alike (.dropHandle task) (.dropHandle otherTask)
  | collect : Alike .collect .collect
  | begin (place : Nat) : Alike (.begin place) (.begin place)
  | goOn (place : Nat) : Alike (.goOn place) (.goOn place)

structure Moment.Alike (moment other : Moment ν) : Prop where
  run : moment.run.Alike other.run
  busy : List.Forall₂ Activity.Alike moment.busy other.busy
  released : moment.released = other.released

namespace Task.Alike

variable {task other : Task ν}

theorem firstStage (alike : task.Alike other) : task.firstStage.Alike other.firstStage := by
  by_cases early : task.work.pace = .panicsEarly
  · have otherEarly := alike.work.panicsEarly_iff.mp early
    rw [Task.firstStage, Task.firstStage, early, otherEarly]
    exact .ending _ _
  · have otherNotEarly : other.work.pace ≠ .panicsEarly :=
      fun otherEarly => early (alike.work.panicsEarly_iff.mpr otherEarly)
    rw [Task.firstStage_eq early, Task.firstStage_eq otherNotEarly]
    exact .submitting alike.work.submits

end Task.Alike

namespace Moment.Alike

variable {moment other : Moment ν}

theorem beginTurn (alike : moment.Alike other) (place : Nat) {turn otherTurn : Turn ν}
    (turns : turn.Alike otherTurn) :
    (moment.beginTurn place turn).Alike (other.beginTurn place otherTurn) := by
  have taken : Run.Alike { moment.run with line := moment.run.line.eraseIdx place }
      { other.run with line := other.run.line.eraseIdx place } :=
    { alike.run with line := forall₂_eraseIdx alike.run.line place }
  cases turns with
  | @start task otherTask tasks =>
      have begun := taken.note (.started task.number)
      refine ⟨?_, List.rel_append alike.busy (.cons ⟨tasks, tasks.firstStage⟩ .nil), alike.released⟩
      simp only [Moment.beginTurn, ← tasks.number]
      exact begun
  | finish tasks ending otherEnding =>
      exact ⟨taken, List.rel_append alike.busy (.cons ⟨tasks, .ending _ _⟩ .nil), alike.released⟩

/-- Two tasks that have submitted the same wait at their gates or end, both of them. -/
theorem endSubmitting (alike : moment.Alike other) (place : Nat) {task otherTask : Task ν}
    (tasks : task.Alike otherTask) :
    (moment.endSubmitting place task).Alike (other.endSubmitting place otherTask) := by
  by_cases gated : task.work.pace = .gated
  · have otherGated := tasks.work.gated_iff.mp gated
    rw [Moment.endSubmitting, Moment.endSubmitting, gated, otherGated]
    exact ⟨alike.run.wait tasks, forall₂_eraseIdx alike.busy place, alike.released⟩
  · have ends {moment : Moment ν} {task : Task ν} (notGated : task.work.pace ≠ .gated) :
        ∃ ending, moment.endSubmitting place task =
          { moment with busy := moment.busy.set place ⟨task, .ending ending⟩ } := by
      cases pace : task.work.pace with
      | gated => exact absurd pace notGated
      | instant => exact ⟨.returned task.work.value, by rw [Moment.endSubmitting, pace]⟩
      | panics | panicsEarly => exact ⟨.panicked, by rw [Moment.endSubmitting, pace]⟩
    obtain ⟨ending, becomes⟩ := ends gated
    obtain ⟨otherEnding, otherBecomes⟩ :=
      ends fun otherGated => gated (tasks.work.gated_iff.mpr otherGated)
    rw [becomes, otherBecomes]
    exact ⟨alike.run, forall₂_set alike.busy place ⟨tasks, .ending _ _⟩, alike.released⟩

theorem goOn (alike : moment.Alike other) (place : Nat) {activity otherActivity : Activity ν}
    (activities : activity.Alike otherActivity) :
    (moment.goOn place activity).Alike (other.goOn place otherActivity) := by
  obtain ⟨task, stage⟩ := activity
  obtain ⟨otherTask, otherStage⟩ := otherActivity
  obtain ⟨tasks, stages⟩ := activities
  cases stages with
  | submitting works =>
      cases works with
      | nil => exact alike.endSubmitting place tasks
      | cons child rest =>
          exact ⟨alike.run.submitChild child,
            forall₂_set alike.busy place ⟨tasks, .submitting rest⟩, alike.released⟩
  | ending ending otherEnding =>
      refine ⟨(alike.run.noteEnd task otherTask ending otherEnding).giveBack,
        forall₂_set alike.busy place ⟨tasks, .delivering _ _⟩, ?_⟩
      exact congrArg₂ (fun released number => released ++ [number]) alike.released tasks.number
  | delivering ending otherEnding =>
      exact ⟨alike.run.deliver tasks ending otherEnding, forall₂_eraseIdx alike.busy place,
        alike.released⟩

/-- What happens to two moments that are alike leaves them alike. -/
theorem after (alike : moment.Alike other) {happening otherHappening : Happening ν}
    (happenings : happening.Alike otherHappening) :
    (moment.after happening).Alike (other.after otherHappening) := by
  cases happenings with
  | submit works => exact { alike with run := alike.run.submit works }
  | openGate task ending otherEnding =>
      exact { alike with run := alike.run.openGate task ending otherEnding }
  | dropHandle task otherTask => exact { alike with run := { alike.run with } }
  | collect => exact { alike with run := { alike.run with } }
  | begin place =>
      have turns := forall₂_getElem? alike.run.line place
      simp only [Moment.after]
      generalize moment.run.line[place]? = turn at turns
      generalize other.run.line[place]? = otherTurn at turns
      cases turns with
      | none => exact alike
      | some turns => exact alike.beginTurn place turns
  | goOn place =>
      have activities := forall₂_getElem? alike.busy place
      simp only [Moment.after]
      generalize moment.busy[place]? = activity at activities
      generalize other.busy[place]? = otherActivity at activities
      cases activities with
      | none => exact alike
      | some activities => exact alike.goOn place activities

end Moment.Alike

/-! ## Handles that are kept in both -/

namespace Course

/-- After a look at the handles, those that are kept were seen to resolve if their results are there. -/
theorem Accounted.seen_iff {course : Course ν} (accounted : course.Accounted) {task : Nat}
    (keeps : course.history.Keeps task) :
    task ∈ (course.history.seen ++ course.visible).map Prod.fst ↔
      task ∈ course.delivered.map Prod.fst := by
  obtain ⟨kept, notDropped⟩ := History.keeps_iff.mp keeps
  constructor
  · intro member
    obtain ⟨result, sees, rfl⟩ := List.mem_map.mp member
    refine List.mem_map_of_mem ?_
    rcases List.mem_append.mp sees with already | now
    · exact accounted.seen result already
    · exact (mem_visible now).2
  · intro delivered
    rw [List.map_append, List.mem_append]
    rcases List.mem_append.mp (accounted.handles.mem_iff.mpr kept) with held | already
    · have handle : task ∈ course.handles := (List.mem_append.mp held).resolve_right notDropped
      rcases List.mem_append.mp (course.handles_perm.mem_iff.mpr handle) with waits | now
      · have noResult := Option.isNone_iff_eq_none.mp (List.mem_filter.mp waits).2
        exact absurd noResult (lookup_ne_none_of_mem delivered)
      · exact .inr now
    · exact .inl already

end Course

/-- A handle that is kept was kept before, unless its task is new. -/
theorem History.Keeps.before {history more : History ν} {task : Nat}
    (keeps : (history ++ more).Keeps task) (old : task < history.works.length) :
    history.Keeps task := by
  obtain ⟨⟨work, submitted, kept⟩, notDropped⟩ := keeps
  rw [works_append, List.getElem?_append_left old] at submitted
  exact ⟨⟨work, submitted, kept⟩, fun dropped => notDropped (List.mem_append_left _ dropped)⟩

namespace Moment

/-- Two moments that are alike, with histories in which the handles kept in both have resolved in both
or in none. -/
structure Twins (limit : Nat) (moment other : Moment ν) (history otherHistory : History ν) :
    Prop where
  alike : moment.Alike other
  balanced : moment.places.Balanced limit
  otherBalanced : other.places.Balanced limit
  accounted : (moment.course history).Accounted
  otherAccounted : (other.course otherHistory).Accounted
  seen : ∀ task, history.Keeps task → otherHistory.Keeps task →
    (task ∈ history.seen.map Prod.fst ↔ task ∈ otherHistory.seen.map Prod.fst)

namespace Twins

variable {limit : Nat} {moment other : Moment ν} {history otherHistory : History ν}

theorem ofLimit (requested : Nat) :
    Twins (max 1 requested) (ofLimit requested : Moment ν) (ofLimit requested) {} {} where
  alike := ⟨Run.Alike.ofLimit requested, .nil, rfl⟩
  balanced := balanced_ofLimit requested
  otherBalanced := balanced_ofLimit requested
  accounted := accounted_play requested []
  otherAccounted := accounted_play requested []
  seen := fun _ _ _ => Iff.rfl

/-- What happens without a look at the handles shows of no handle that it has resolved. -/
theorem seen_unlooked (twins : Twins limit moment other history otherHistory)
    {more otherMore : History ν} (unlooked : more.seen = []) (otherUnlooked : otherMore.seen = [])
    (task : Nat) (keeps : (history ++ more).Keeps task)
    (otherKeeps : (otherHistory ++ otherMore).Keeps task) :
    task ∈ (history ++ more).seen.map Prod.fst ↔
      task ∈ (otherHistory ++ otherMore).seen.map Prod.fst := by
  have sameLength : history.works.length = otherHistory.works.length :=
    twins.accounted.numbered.trans
      (twins.alike.run.submitted.trans twins.otherAccounted.numbered.symm)
  rw [History.seen_append, History.seen_append, unlooked, otherUnlooked, List.append_nil,
    List.append_nil]
  by_cases old : task < history.works.length
  · exact twins.seen task (keeps.before old) (otherKeeps.before (sameLength ▸ old))
  · have unseen := fun isSeen => old (twins.accounted.lt_of_seen isSeen)
    have otherUnseen := fun isSeen => old (sameLength ▸ twins.otherAccounted.lt_of_seen isSeen)
    exact iff_of_false unseen otherUnseen

theorem after (twins : Twins limit moment other history otherHistory)
    {happening otherHappening : Happening ν} (happenings : happening.Alike otherHappening) :
    Twins limit (moment.after happening) (other.after otherHappening)
      (history ++ moment.adds happening) (otherHistory ++ other.adds otherHappening) := by
  have moves {moment : Moment ν} (balanced : moment.places.Balanced limit)
      (happening : Happening ν) : (moment.after happening).places.Balanced limit := by
    have step : Places.Step False moment.places (moment.after happening).places :=
      step_after balanced.running_nodup happening False.elim
    exact step.balanced balanced
  have steps {moment : Moment ν} {history : History ν} (balanced : moment.places.Balanced limit)
      (accounted : (moment.course history).Accounted) (happening : Happening ν) :
      ((moment.after happening).course (history ++ moment.adds happening)).Accounted :=
    (course_after history balanced.atGate_nodup happening).accounted accounted
  refine ⟨twins.alike.after happenings, moves twins.balanced happening,
    moves twins.otherBalanced otherHappening, steps twins.balanced twins.accounted happening,
    steps twins.otherBalanced twins.otherAccounted otherHappening, ?_⟩
  cases happenings with
  | submit works => exact twins.seen_unlooked rfl rfl
  | openGate task ending otherEnding => exact twins.seen_unlooked rfl rfl
  | dropHandle task otherTask => exact twins.seen_unlooked rfl rfl
  | begin place => exact twins.seen_unlooked rfl rfl
  | goOn place => exact twins.seen_unlooked rfl rfl
  | collect =>
      intro task keeps otherKeeps
      have before : history.Keeps task := by
        simpa [History.Keeps, Moment.adds] using keeps
      have otherBefore : otherHistory.Keeps task := by
        simpa [History.Keeps, Moment.adds] using otherKeeps
      have sameEnded : task ∈ moment.run.endings.map Prod.fst ↔
          task ∈ other.run.endings.map Prod.fst := by rw [twins.alike.run.ended]
      exact (twins.accounted.seen_iff before).trans
        (sameEnded.trans (twins.otherAccounted.seen_iff otherBefore).symm)

theorem play (twins : Twins limit moment other history otherHistory)
    {happenings others : List (Happening ν)} (alike : List.Forall₂ Happening.Alike happenings others) :
    Twins limit (moment.play happenings) (other.play others)
      (history ++ moment.history happenings) (otherHistory ++ other.history others) := by
  induction alike generalizing moment other history otherHistory with
  | nil =>
      rw [Moment.history, Moment.history, History.append_empty, History.append_empty]
      exact twins
  | cons first _ inductionHypothesis =>
      have later := inductionHypothesis (twins.after first)
      rw [History.append_assoc, History.append_assoc] at later
      exact later

end Twins

end Moment

/-! ## Driven runs -/

/-- What two runs are asked that differ in endings and in dropped handles only. -/
inductive Action.Alike : Action ν → Action ν → Prop where
  | submit {work other : Work ν} (works : work.Alike other) (times : Nat) :
      Alike (.submit work times) (.submit other times)
  | openGate (task : Nat) (ending otherEnding : Ending ν) :
      Alike (.openGate task ending) (.openGate task otherEnding)
  | dropHandles (task otherTask : Nat) : Alike (.dropHandle task) (.dropHandle otherTask)
  | firstDrops (task : Nat) : Alike (.dropHandle task) .wait
  | otherDrops (task : Nat) : Alike .wait (.dropHandle task)
  | wait : Alike .wait .wait

structure Step.Alike (step other : Step ν) : Prop where
  action : step.action.Alike other.action
  settles : step.settles = other.settles

namespace Run.Alike

variable {run other : Run ν}

theorem submitTimes (alike : run.Alike other) {work otherWork : Work ν} (works : work.Alike otherWork)
    (times : Nat) : (run.submitTimes work times).2.Alike (other.submitTimes otherWork times).2 := by
  induction times generalizing run other with
  | zero => exact alike
  | succ times inductionHypothesis => exact inductionHypothesis (alike.submit works)

theorem perform (alike : run.Alike other) {action otherAction : Action ν}
    (actions : action.Alike otherAction) : (run.perform action).2.Alike (other.perform otherAction).2 := by
  cases actions with
  | submit works times => exact alike.submitTimes works times
  | openGate task ending otherEnding => exact alike.openGate task ending otherEnding
  | dropHandles task otherTask => exact { alike with }
  | firstDrops task => exact { alike with }
  | otherDrops task => exact { alike with }
  | wait => exact alike

theorem step (alike : run.Alike other) {step otherStep : Step ν} (steps : step.Alike otherStep) :
    (run.step step).2.Alike (other.step otherStep).2 := by
  have acted := alike.perform steps.action
  have looked {settled otherSettled : Run ν} (alike : settled.Alike otherSettled) :
      settled.collect.2.Alike otherSettled.collect.2 := { alike with }
  cases settles : step.settles with
  | true =>
      simp only [Run.step, ← steps.settles, settles, if_true]
      exact looked acted.settle
  | false =>
      simp only [Run.step, ← steps.settles, settles, Bool.false_eq_true, if_false]
      exact looked acted

theorem steps (alike : run.Alike other) {steps others : List (Step ν)}
    (scripts : List.Forall₂ Step.Alike steps others) :
    (run.steps steps).2.Alike (other.steps others).2 := by
  induction scripts generalizing run other with
  | nil => exact alike
  | cons first _ inductionHypothesis => exact inductionHypothesis (alike.step first)

end Run.Alike

/-- After every step of a driven run, the handles that are kept were seen to resolve if their results
are there. -/
theorem Run.seen_steps (requested : Nat) (steps : List (Step ν)) {task : Nat}
    (keeps : ((Run.ofLimit requested).history steps).Keeps task) :
    task ∈ ((Run.ofLimit requested).history steps).seen.map Prod.fst ↔
      task ∈ ((Run.ofLimit requested).steps steps).2.endings.map Prod.fst := by
  obtain ⟨happenings, -, reached, sameHistory⟩ := Moment.reaches_steps (Run.ofLimit requested) steps
  have accounted := Moment.accounted_play requested happenings
  rw [show (Moment.ofLimit requested).play happenings = _ from reached,
    show (Moment.ofLimit requested).history happenings = _ from sameHistory] at accounted
  have looked : ∀ task ∈ ((Run.ofLimit requested).steps steps).2.handles,
      ((Run.ofLimit requested).steps steps).2.result? task = none := by
    rcases List.eq_nil_or_concat steps with rfl | ⟨earlier, last, rfl⟩
    · intro task kept
      cases kept
    · rw [List.concat_eq_append, Run.steps_concat]
      intro task still
      exact Option.isNone_iff_eq_none.mp (List.mem_filter.mp still).2
  have nothingNew : ((Moment.atRest ((Run.ofLimit requested).steps steps).2).course
      ((Run.ofLimit requested).history steps)).visible = [] :=
    List.filterMap_eq_nil_iff.mpr fun task still =>
      Option.map_eq_none_iff.mpr (looked task still)
  have iff := accounted.seen_iff keeps
  rw [nothingNew, List.append_nil] at iff
  exact iff

/-! ## Two whole runs -/

/-- What two runs have in common at the same point, that differ in endings and in dropped handles only;
`whole` and `otherWhole` are their histories to the end. -/
structure Run.Matches (run other : Run ν) (past otherPast whole otherWhole : History ν) : Prop where
  inFlight : run.queue.inFlight = other.queue.inFlight
  queued : run.queue.queued = other.queue.queued
  launches : run.launches = other.launches
  /-- A handle kept in both, of a task that ends alike in both, has resolved alike. -/
  resolved : ∀ task, past.Keeps task → otherPast.Keeps task →
    whole.ending? task = otherWhole.ending? task →
    ∀ ending, (task, ending) ∈ past.seen ↔ (task, ending) ∈ otherPast.seen

/-- Results that are the ends of their tasks are determined by these tasks. -/
theorem mem_seen_iff {past whole : History ν}
    (own : ∀ result ∈ past.seen, whole.ending? result.1 = some result.2) {task : Nat}
    {ending : Ending ν} : (task, ending) ∈ past.seen ↔
      task ∈ past.seen.map Prod.fst ∧ whole.ending? task = some ending := by
  constructor
  · intro isSeen
    exact ⟨List.mem_map_of_mem isSeen, own (task, ending) isSeen⟩
  · rintro ⟨isSeen, ends⟩
    obtain ⟨⟨_, result⟩, member, rfl⟩ := List.mem_map.mp isSeen
    obtain rfl : result = ending := Option.some.inj ((own _ member).symm.trans ends)
    exact member

theorem Run.Alike.matches {run other : Run ν} {past otherPast whole otherWhole : History ν}
    (alike : run.Alike other)
    (seen : ∀ task, past.Keeps task → otherPast.Keeps task →
      (task ∈ past.seen.map Prod.fst ↔ task ∈ otherPast.seen.map Prod.fst))
    (own : ∀ result ∈ past.seen, whole.ending? result.1 = some result.2)
    (otherOwn : ∀ result ∈ otherPast.seen, otherWhole.ending? result.1 = some result.2) :
    run.Matches other past otherPast whole otherWhole := by
  refine ⟨alike.inFlight, alike.pending.length_eq, alike.launches, ?_⟩
  intro task keeps otherKeeps sameEnding ending
  rw [mem_seen_iff own, mem_seen_iff otherOwn, seen task keeps otherKeeps, sameEnding]

namespace Moment

/-- A result that was seen is the end of the task's own work, also in the light of what came later. -/
theorem own_of_seen (requested : Nat) (happenings : List (Happening ν)) (more : History ν)
    (result : Nat × Ending ν) (isSeen : result ∈ ((ofLimit requested).history happenings).seen) :
    ((ofLimit requested).history happenings ++ more).ending? result.1 = some result.2 := by
  have results := resultsInOrder requested happenings
  exact History.ending?_append (results.resolved result (results.seen result isSeen).2).own more

theorem matches_play (requested : Nat) {happenings others : List (Happening ν)}
    (alike : List.Forall₂ Happening.Alike happenings others) (count : Nat) :
    Run.Matches ((ofLimit requested).play (happenings.take count)).run
      ((ofLimit requested).play (others.take count)).run
      ((ofLimit requested).history (happenings.take count))
      ((ofLimit requested).history (others.take count))
      ((ofLimit requested).history happenings) ((ofLimit requested).history others) := by
  have twins := (Twins.ofLimit requested).play (List.forall₂_take count alike)
  have whole (happenings : List (Happening ν)) : (ofLimit requested).history happenings =
      (ofLimit requested).history (happenings.take count) ++
        ((ofLimit requested).play (happenings.take count)).history (happenings.drop count) := by
    rw [← history_append, List.take_append_drop]
  rw [whole happenings, whole others]
  exact twins.alike.run.matches twins.seen (own_of_seen requested _ _) (own_of_seen requested _ _)

theorem matches_steps (requested : Nat) {steps others : List (Step ν)}
    (alike : List.Forall₂ Step.Alike steps others) (count : Nat) :
    Run.Matches ((Run.ofLimit requested).steps (steps.take count)).2
      ((Run.ofLimit requested).steps (others.take count)).2
      ((Run.ofLimit requested).history (steps.take count))
      ((Run.ofLimit requested).history (others.take count))
      ((Run.ofLimit requested).history steps) ((Run.ofLimit requested).history others) := by
  have runs := (Run.Alike.ofLimit requested).steps (List.forall₂_take count alike)
  have whole (steps : List (Step ν)) : (Run.ofLimit requested).history steps =
      (Run.ofLimit requested).history (steps.take count) ++
        ((Run.ofLimit requested).steps (steps.take count)).2.history (steps.drop count) := by
    rw [← Run.history_append, List.take_append_drop]
  have own (steps : List (Step ν)) (more : History ν) (result : Nat × Ending ν)
      (isSeen : result ∈ ((Run.ofLimit requested).history steps).seen) :
      ((Run.ofLimit requested).history steps ++ more).ending? result.1 = some result.2 := by
    obtain ⟨happenings, -, -, sameHistory⟩ := reaches_steps (Run.ofLimit requested) steps
    rw [← sameHistory] at isSeen ⊢
    exact own_of_seen requested happenings more result isSeen
  rw [whole steps, whole others]
  refine runs.matches (fun task keeps otherKeeps => ?_) (own _ _) (own _ _)
  rw [Run.seen_steps requested _ keeps, Run.seen_steps requested _ otherKeeps, runs.ended]

/-- Take two runs to which the same happens, but that work which returns in one may panic in the other at
its end, that values differ, and that different handles are dropped. After every step the same number of
slots is taken and of tasks waits, and the same tasks were started and submitted from inside in the same
order. A handle that both keep, of a task that ends alike in both, has resolved in both or in none, to
the same result. -/
theorem indifferent_to_endings (requested : Nat) :
    (∀ happenings others : List (Happening ν), List.Forall₂ Happening.Alike happenings others →
      ∀ count, Run.Matches ((ofLimit requested).play (happenings.take count)).run
        ((ofLimit requested).play (others.take count)).run
        ((ofLimit requested).history (happenings.take count))
        ((ofLimit requested).history (others.take count))
        ((ofLimit requested).history happenings) ((ofLimit requested).history others)) ∧
    ∀ steps others : List (Step ν), List.Forall₂ Step.Alike steps others →
      ∀ count, Run.Matches ((Run.ofLimit requested).steps (steps.take count)).2
        ((Run.ofLimit requested).steps (others.take count)).2
        ((Run.ofLimit requested).history (steps.take count))
        ((Run.ofLimit requested).history (others.take count))
        ((Run.ofLimit requested).history steps) ((Run.ofLimit requested).history others) :=
  ⟨fun _ _ alike => matches_play requested alike, fun _ _ alike => matches_steps requested alike⟩

/-- One slot and two tasks, each with a child at a gate. -/
def returning : List (Step Nat) :=
  [⟨.submit (.unit .instant 1 true [.unit .gated 0 true []]) 2, false⟩, ⟨.wait, true⟩,
    ⟨.openGate 2 (.returned 7), true⟩]

/-- The same, but that the two tasks panic and that the handle of the first one is dropped. -/
def panicking : List (Step Nat) :=
  [⟨.submit (.unit .panics 5 true [.unit .gated 0 true []]) 2, false⟩, ⟨.dropHandle 0, true⟩,
    ⟨.openGate 2 (.returned 7), true⟩]

theorem indifferent_to_endings_droppedHandle :
    List.Forall₂ Step.Alike returning panicking ∧
      ((Run.ofLimit 1).history returning).seen =
        [(0, .returned 1), (1, .returned 1), (2, .returned 7)] ∧
      ((Run.ofLimit 1).history panicking).seen = [(1, .panicked), (2, .returned 7)] ∧
      (∀ count, Run.Matches ((Run.ofLimit 1).steps (returning.take count)).2
        ((Run.ofLimit 1).steps (panicking.take count)).2
        ((Run.ofLimit 1).history (returning.take count))
        ((Run.ofLimit 1).history (panicking.take count))
        ((Run.ofLimit 1).history returning) ((Run.ofLimit 1).history panicking)) ∧
      Run.Matches ((ofLimit 1).play [.submit (.unit .instant 1 true []), .begin 0]).run
        ((ofLimit 1).play [.submit (.unit .panics 5 true []), .begin 0]).run
        ((ofLimit 1).history [.submit (.unit .instant 1 true []), .begin 0])
        ((ofLimit 1).history [.submit (.unit .panics 5 true []), .begin 0])
        ((ofLimit 1).history [.submit (.unit .instant 1 true []), .begin 0])
        ((ofLimit 1).history [.submit (.unit .panics 5 true []), .begin 0]) := by
  have works (children : List (Work Nat)) (same : List.Forall₂ Work.Alike children children) :
      Work.Alike (.unit .instant 1 true children) (.unit .panics 5 true children) :=
    .unit _ _ _ _ .panicsInstead same
  have child : Work.Alike (.unit .gated 0 true []) (.unit .gated 0 true [] : Work Nat) :=
    .unit _ _ _ _ (.same _) .nil
  have alike : List.Forall₂ Step.Alike returning panicking :=
    .cons ⟨.submit (works _ (.cons child .nil)) 2, rfl⟩
      (.cons ⟨.otherDrops 0, rfl⟩ (.cons ⟨.openGate 2 _ _, rfl⟩ .nil))
  obtain ⟨interleaved, driven⟩ := indifferent_to_endings (ν := Nat) 1
  exact ⟨alike, rfl, rfl, driven _ _ alike,
    interleaved _ _ (.cons (.submit (works [] .nil)) (.cons (.begin 0) .nil)) 2⟩

end Moment

end PeerLink.Throttle
