import PeerLink.Proofs.Throttle.Course
import PeerLink.Proofs.Throttle.Slots

/-!
Contract: what the results of tasks are, and when they can be seen.

`Course.Sound` and `Course.Accounted` are the invariants of all steps of a course: every end that is
on its way is the end of the task's own work, every result that can be seen is that of a task which
gave its slot back, and every handle that was kept is still waiting, was dropped or has resolved. With
the balance of the slots this makes a result the last thing that happens to its task.

Owns: the invariants, and what a result says in every moment and in every driven run.

Does not own: that results come about.
-/

namespace PeerLink.Throttle

variable {ν : Type}

/-! ## Histories with open tasks -/

namespace History

/-- These tasks were submitted, each once and with this work, and none was told how to end. -/
structure HasOpen (history : History ν) (tasks : List (Task ν)) : Prop where
  distinct : (tasks.map Task.number).Nodup
  submitted : ∀ task ∈ tasks, history.works[task.number]? = some task.work
  untold : ∀ task ∈ tasks, history.told.lookup task.number = none

namespace HasOpen

variable {history later : History ν} {task : Task ν} {tasks others : List (Task ν)}

theorem perm (hasOpen : history.HasOpen tasks) (same : tasks.Perm others) :
    history.HasOpen others where
  distinct := (same.map Task.number).nodup_iff.mp hasOpen.distinct
  submitted := fun task member => hasOpen.submitted task (same.mem_iff.mpr member)
  untold := fun task member => hasOpen.untold task (same.mem_iff.mpr member)

/-- Only the work that was submitted and what was told matter. -/
theorem congr (hasOpen : history.HasOpen tasks) (works : later.works = history.works)
    (told : later.told = history.told) : later.HasOpen tasks where
  distinct := hasOpen.distinct
  submitted := works ▸ hasOpen.submitted
  untold := told ▸ hasOpen.untold

theorem rest (hasOpen : history.HasOpen (task :: tasks)) : history.HasOpen tasks where
  distinct := (List.nodup_cons.mp hasOpen.distinct).2
  submitted := fun other member => hasOpen.submitted other (List.mem_cons_of_mem _ member)
  untold := fun other member => hasOpen.untold other (List.mem_cons_of_mem _ member)

theorem lt_length (hasOpen : history.HasOpen tasks) (member : task ∈ tasks) :
    task.number < history.works.length :=
  (List.getElem?_eq_some_iff.mp (hasOpen.submitted task member)).1

theorem submit (hasOpen : history.HasOpen tasks) (work : Work ν)
    (unknown : history.told.lookup history.works.length = none) :
    (history ++ ({ works := [work] } : History ν)).HasOpen (⟨history.works.length, work⟩ :: tasks) where
  distinct := by
    rw [List.map_cons, List.nodup_cons]
    refine ⟨fun member => ?_, hasOpen.distinct⟩
    obtain ⟨task, isOpen, number⟩ := List.mem_map.mp member
    have below := hasOpen.lt_length isOpen
    simp only at number
    omega
  submitted := by
    intro task member
    rcases List.mem_cons.mp member with rfl | isOpen
    · simp
    · rw [works_append, List.getElem?_append_left (hasOpen.lt_length isOpen)]
      exact hasOpen.submitted task isOpen
  untold := by
    intro task member
    rw [told_append, List.append_nil]
    rcases List.mem_cons.mp member with rfl | isOpen
    · exact unknown
    · exact hasOpen.untold task isOpen

theorem tell (hasOpen : history.HasOpen (task :: tasks)) (ending : Ending ν) :
    (history ++ ({ told := [(task.number, ending)] } : History ν)).HasOpen tasks where
  distinct := hasOpen.rest.distinct
  submitted := by
    intro other member
    rw [works_append, List.append_nil]
    exact hasOpen.rest.submitted other member
  untold := by
    intro other member
    have differ : other.number ≠ task.number := by
      intro equal
      exact (List.nodup_cons.mp hasOpen.distinct).1 (equal ▸ List.mem_map_of_mem member)
    rw [told_append, List.lookup_append, hasOpen.rest.untold other member, Option.none_or,
      List.lookup_cons, beq_eq_false_iff_ne.mpr differ]
    rfl

/-- The end of an open task is the end that its work comes to on its own. -/
theorem ending?_eq (hasOpen : history.HasOpen tasks) (member : task ∈ tasks) :
    history.ending? task.number = task.work.ending? none := by
  rw [ending?, hasOpen.submitted task member, hasOpen.untold task member, Option.bind_some]

/-- A task at its gate ends as it is told. -/
theorem ending?_tell (hasOpen : history.HasOpen (task :: tasks)) (gated : task.work.pace = .gated)
    (ending : Ending ν) :
    (history ++ ({ told := [(task.number, ending)] } : History ν)).ending? task.number =
      some ending := by
  rw [ending?, works_append, List.append_nil, hasOpen.submitted task List.mem_cons_self,
    Option.bind_some, Work.ending?_of_gated gated, told_append, List.lookup_append,
    hasOpen.untold task List.mem_cons_self, Option.none_or, List.lookup_cons_self]

end HasOpen

/-! ## Handles -/

/-- The tasks whose handles were kept when they were submitted. -/
def keptTasks (history : History ν) : List Nat :=
  (List.range history.works.length).filter fun task => history.works[task]?.any Work.kept

theorem keptTasks_nodup (history : History ν) : history.keptTasks.Nodup :=
  List.nodup_range.filter _

theorem lt_of_mem_keptTasks {history : History ν} {task : Nat} (kept : task ∈ history.keptTasks) :
    task < history.works.length :=
  List.mem_range.mp (List.mem_filter.mp kept).1

theorem keeps_iff {history : History ν} {task : Nat} :
    history.Keeps task ↔ task ∈ history.keptTasks ∧ task ∉ history.dropped := by
  have kept : task ∈ history.keptTasks ↔
      ∃ work, history.works[task]? = some work ∧ work.kept = true := by
    simp only [keptTasks, List.mem_filter, List.mem_range, Option.any_eq_true]
    constructor
    · exact fun member => member.2
    · rintro ⟨work, submitted, kept⟩
      exact ⟨(List.getElem?_eq_some_iff.mp submitted).1, work, submitted, kept⟩
  rw [Keeps, kept]

theorem keptTasks_submit (history : History ν) (work : Work ν) :
    (history ++ ({ works := [work] } : History ν)).keptTasks =
      if work.kept then history.keptTasks ++ [history.works.length] else history.keptTasks := by
  have before : (List.range history.works.length).filter
      (fun task => (history.works ++ [work])[task]?.any Work.kept) = history.keptTasks :=
    List.filter_congr fun task member => by
      rw [List.getElem?_append_left (List.mem_range.mp member)]
  rw [keptTasks, works_append, List.length_append, List.length_singleton, List.range_succ,
    List.filter_append, before]
  cases kept : work.kept <;> simp [kept]

end History

theorem Places.Balanced.atGate_nodup {limit : Nat} {moment : Moment ν}
    (balanced : moment.places.Balanced limit) : (moment.run.atGate.map Task.number).Nodup :=
  (List.nodup_append.mp (List.nodup_append.mp balanced.running_nodup).2.1).1

/-! ## What all steps preserve -/

namespace Course

variable {before later : Course ν}

/-- Every end that is on its way, or that can be seen, is the end of the task's own work. -/
structure Sound (course : Course ν) : Prop where
  numbered : course.history.works.length = course.submitted
  told_lt : ∀ told ∈ course.history.told, told.1 < course.history.works.length
  hasOpen : course.history.HasOpen (course.undecided ++ course.atGate)
  gated : ∀ task ∈ course.atGate, task.work.pace = .gated
  settled : ∀ result ∈ course.ending ++ course.delivering ++ course.delivered,
    course.history.ending? result.1 = some result.2
  /-- Results are delivered for the tasks that gave their slots back. -/
  released : (course.delivered.map Prod.fst ++ course.delivering.map Prod.fst).Perm course.released

theorem Sound.unknown (sound : before.Sound) :
    before.history.told.lookup before.history.works.length = none := by
  rw [List.lookup_eq_none_iff]
  intro told member
  have below := sound.told_lt told member
  rw [bne_iff_ne]
  omega

theorem Step.sound (step : Step before later) (sound : before.Sound) : later.Sound := by
  have unknown := sound.unknown
  obtain ⟨numbered, told_lt, hasOpen, gated, settled, released⟩ := sound
  cases step with
  | moves undecided ending sameUndecided sameEnding =>
      refine ⟨numbered, told_lt, hasOpen.perm (sameUndecided.append_right _), gated, ?_, released⟩
      intro result member
      exact settled result ((((sameEnding.append_right _).append_right _).mem_iff).mpr member)
  | submits work undecided joins =>
      have opened := (hasOpen.submit work unknown).perm (numbered ▸ (joins.append_right _).symm)
      refine ⟨?_, ?_, opened, gated, ?_, released⟩
      · simp [numbered]
      · intro told member
        have below := told_lt told (by simpa using member)
        simp only [History.works_append, List.length_append]
        omega
      · intro result member
        exact History.ending?_append (settled result member) _
  | waits task undecided leaves isGated =>
      have moved : (before.undecided ++ before.atGate).Perm
          (undecided ++ (before.atGate ++ [task])) := by
        refine (leaves.append_right _).trans ?_
        rw [← List.append_assoc]
        exact (List.perm_append_singleton _ _).symm
      refine ⟨numbered, told_lt, hasOpen.perm moved, ?_, settled, released⟩
      intro other member
      rcases List.mem_append.mp member with waiting | isTask
      · exact gated other waiting
      · rw [List.mem_singleton.mp isTask]
        exact isGated
  | ends task result undecided ending leaves own joins =>
      have opened : before.history.HasOpen (task :: (undecided ++ before.atGate)) :=
        hasOpen.perm (leaves.append_right _)
      refine ⟨numbered, told_lt, opened.rest, gated, ?_, released⟩
      intro other member
      have among := (((joins.append_right _).append_right _).mem_iff).mp member
      rcases List.mem_cons.mp among with rfl | already
      · rw [opened.ending?_eq List.mem_cons_self]
        exact own
      · exact settled other already
  | tells task result atGate ending leaves joins =>
      have opened : before.history.HasOpen (task :: (before.undecided ++ atGate)) :=
        hasOpen.perm ((leaves.append_left _).trans List.perm_middle)
      have isGated : task.work.pace = .gated := gated task (leaves.mem_iff.mpr List.mem_cons_self)
      refine ⟨by simpa using numbered, ?_, opened.tell result, ?_, ?_, released⟩
      · intro told member
        rw [History.works_append, List.append_nil]
        rcases List.mem_append.mp member with already | isTold
        · exact told_lt told already
        · rw [List.mem_singleton.mp isTold]
          exact opened.lt_length List.mem_cons_self
      · intro other member
        exact gated other (leaves.mem_iff.mpr (List.mem_cons_of_mem _ member))
      · intro other member
        have among := (((joins.append_right _).append_right _).mem_iff).mp member
        rcases List.mem_cons.mp among with rfl | already
        · exact opened.ending?_tell isGated result
        · exact History.ending?_append (settled other already) _
  | gives task result ending delivering leaves joins =>
      refine ⟨numbered, told_lt, hasOpen, gated, ?_, ?_⟩
      · intro other member
        refine settled other ?_
        simp only [List.mem_append, joins.mem_iff, leaves.mem_iff, List.mem_cons] at member ⊢
        tauto
      · refine ((joins.map Prod.fst).append_left _).trans ?_
        refine List.perm_middle.trans ((released.cons task).trans ?_)
        exact (List.perm_append_singleton _ _).symm
  | delivers task result delivering leaves =>
      refine ⟨numbered, told_lt, hasOpen, gated, ?_, ?_⟩
      · intro other member
        refine settled other ?_
        simp only [List.mem_append, leaves.mem_iff, List.mem_cons, List.not_mem_nil, or_false]
          at member ⊢
        tauto
      · refine List.Perm.trans ?_ released
        rw [List.map_append, List.append_assoc]
        exact (leaves.map Prod.fst).symm.append_left _
  | drops task kept =>
      exact ⟨by simpa using numbered, by simpa using told_lt, hasOpen.congr (by simp) (by simp), gated,
        fun result member => History.ending?_append (settled result member) _, released⟩
  | collects =>
      exact ⟨by simpa using numbered, by simpa using told_lt, hasOpen.congr (by simp) (by simp), gated,
        fun result member => History.ending?_append (settled result member) _, released⟩

/-- Every handle that was kept still waits, was dropped, or has resolved to a result that could be
seen. -/
structure Accounted (course : Course ν) : Prop where
  numbered : course.history.works.length = course.submitted
  handles : (course.handles ++ course.history.dropped ++ course.history.seen.map Prod.fst).Perm
    course.history.keptTasks
  seen : ∀ result ∈ course.history.seen, result ∈ course.delivered

theorem Accounted.lt_of_seen {course : Course ν} (accounted : course.Accounted) {task : Nat}
    (isSeen : task ∈ course.history.seen.map Prod.fst) : task < course.history.works.length :=
  History.lt_of_mem_keptTasks (accounted.handles.mem_iff.mp (List.mem_append_right _ isSeen))

/-- A handle that resolves is one that was kept, and resolves to what was delivered. -/
theorem mem_visible {course : Course ν} {result : Nat × Ending ν} (sees : result ∈ course.visible) :
    result.1 ∈ course.handles ∧ result ∈ course.delivered := by
  obtain ⟨task, kept, found⟩ := List.mem_filterMap.mp sees
  obtain ⟨ending, delivered, rfl⟩ := Option.map_eq_some_iff.mp found
  obtain ⟨earlier, others, split, -⟩ := List.lookup_eq_some_iff.mp delivered
  exact ⟨kept, by simp [split]⟩

/-- The handles that are looked at either resolve or are kept. -/
theorem handles_perm (course : Course ν) :
    ((course.handles.filter fun task => (course.delivered.lookup task).isNone) ++
      course.visible.map Prod.fst).Perm course.handles := by
  have visible : course.visible.map Prod.fst =
      course.handles.filter fun task => !(course.delivered.lookup task).isNone := by
    rw [visible, List.map_filterMap, ← List.filterMap_eq_filter]
    refine List.filterMap_congr fun task _ => ?_
    cases found : course.delivered.lookup task <;> simp [Option.guard, found]
  rw [visible]
  exact List.filter_append_perm _ _

theorem Step.accounted (step : Step before later) (accounted : before.Accounted) :
    later.Accounted := by
  obtain ⟨numbered, handles, seen⟩ := accounted
  cases step with
  | moves undecided ending sameUndecided sameEnding => exact ⟨numbered, handles, seen⟩
  | waits task undecided leaves gated => exact ⟨numbered, handles, seen⟩
  | ends task result undecided ending leaves own joins => exact ⟨numbered, handles, seen⟩
  | gives task result ending delivering leaves joins => exact ⟨numbered, handles, seen⟩
  | tells task result atGate ending leaves joins =>
      refine ⟨by simpa using numbered, ?_, by simpa using seen⟩
      simpa [History.keptTasks] using handles
  | submits work undecided joins =>
      refine ⟨by simp [numbered], ?_, by simpa using seen⟩
      simp only [History.keptTasks_submit, History.dropped_append, History.seen_append,
        List.append_nil, numbered]
      cases work.kept with
      | false => exact handles
      | true =>
          refine List.Perm.trans ?_ ((handles.cons before.submitted).trans
            (List.perm_append_singleton _ _).symm)
          simp only [if_true, List.append_assoc]
          exact List.perm_middle
  | delivers task result delivering leaves =>
      exact ⟨numbered, handles, fun other member => List.mem_append_left _ (seen other member)⟩
  | drops task kept =>
      have distinct : before.handles.Nodup :=
        (List.nodup_append.mp (List.nodup_append.mp
          (handles.nodup_iff.mpr before.history.keptTasks_nodup)).1).1
      have left : before.handles.Perm (task :: before.handles.filter (· != task)) := by
        rw [← distinct.erase_eq_filter]
        exact List.perm_cons_erase kept
      refine ⟨by simpa using numbered, ?_, by simpa using seen⟩
      have same := ((left.append_right _).append_right _).symm.trans handles
      refine List.Perm.trans ?_ (same.trans (by simp [History.keptTasks]))
      simp only [History.dropped_append, History.seen_append, List.append_nil, List.append_assoc,
        List.cons_append, List.nil_append]
      rw [← List.append_assoc]
      refine List.perm_middle.trans ?_
      rw [List.append_assoc]
  | collects =>
      refine ⟨by simpa using numbered, ?_, ?_⟩
      · have same := ((before.handles_perm.append_right _).append_right _).trans handles
        refine List.Perm.trans ?_ (same.trans (by simp [History.keptTasks]))
        rw [List.perm_iff_count]
        intro task
        simp only [History.dropped_append, History.seen_append, List.append_nil, List.map_append,
          List.count_append]
        omega
      · intro result member
        rcases List.mem_append.mp member with already | sees
        · exact seen result already
        · exact (mem_visible sees).2

end Course

/-! ## The oldest waiting task -/

/-- As long as no slot is given back the oldest waiting task stays the oldest; with the first one it is
admitted, and then for good. -/
def Places.PassesTo (oldest : Nat) (released : List Nat) (places : Places) : Prop :=
  oldest ∈ places.started ++ places.spawned ∨
    places.waiting.head? = some oldest ∧ places.released = released

theorem Places.Step.passesTo {inOrder : Prop} {before later : Places} {oldest : Nat}
    {released : List Nat} (step : Step inOrder before later)
    (passes : before.PassesTo oldest released) : later.PassesTo oldest released := by
  cases step with
  | stays running same => exact passes
  | admits free =>
      rcases passes with admitted | waits
      · exact .inl (by simp only [List.mem_append] at admitted ⊢; tauto)
      · exact .inr waits
  | queues taken =>
      rcases passes with admitted | ⟨isOldest, same⟩
      · exact .inl admitted
      · exact .inr ⟨by rw [List.head?_append, isOldest]; rfl, same⟩
  | begins earlier task later running spawned isFirst joins =>
      rcases passes with admitted | waits
      · rw [spawned] at admitted
        exact .inl (by simp only [List.mem_append, List.mem_cons, List.not_mem_nil] at admitted ⊢; tauto)
      · exact .inr waits
  | passes task running next rest leaves waiting =>
      rcases passes with admitted | ⟨isOldest, -⟩
      · exact .inl (by simp only [List.mem_append] at admitted ⊢; tauto)
      · rw [waiting, List.head?_cons] at isOldest
        exact .inl (by simp [Option.some.inj isOldest])
  | frees task running leaves noneWaits =>
      rcases passes with admitted | ⟨isOldest, -⟩
      · exact .inl admitted
      · rw [noneWaits] at isOldest
        cases isOldest

namespace Moment

/-! ## Every interleaving -/

/-- What every step of a course preserves holds after all this happened. -/
theorem course_play {Good : Course ν → Prop} {limit : Nat} {moment : Moment ν} {history : History ν}
    (keeps : ∀ {before later : Course ν}, Course.Step before later → Good before → Good later)
    (balanced : moment.places.Balanced limit) (good : Good (moment.course history))
    (happenings : List (Happening ν)) :
    Good ((moment.play happenings).course (history ++ moment.history happenings)) := by
  induction happenings generalizing moment history with
  | nil => exact history.append_empty.symm ▸ good
  | cons happening rest inductionHypothesis =>
      have moved : Places.Step False moment.places (moment.after happening).places :=
        step_after balanced.running_nodup happening False.elim
      have later := inductionHypothesis (moved.balanced balanced)
        (keeps (course_after history balanced.atGate_nodup happening) good)
      rw [History.append_assoc] at later
      exact later

section Runs

variable (requested : Nat) (happenings : List (Happening ν))

theorem sound_play : (((ofLimit requested).play happenings).course
    ((ofLimit requested).history happenings)).Sound := by
  have first : ((ofLimit requested : Moment ν).course {}).Sound := by
    refine ⟨rfl, ?_, ⟨?_, ?_, ?_⟩, ?_, ?_, ?_⟩ <;>
      simp [course, ofLimit, Run.ofLimit, Run.unbegun, Queue.ofLimit]
  exact course_play Course.Step.sound (balanced_ofLimit requested) first happenings

theorem accounted_play : (((ofLimit requested).play happenings).course
    ((ofLimit requested).history happenings)).Accounted := by
  have first : ((ofLimit requested : Moment ν).course {}).Accounted := by
    refine ⟨rfl, ?_, ?_⟩ <;> simp [course, ofLimit, Run.ofLimit, History.keptTasks]
  exact course_play Course.Step.accounted (balanced_ofLimit requested) first happenings

end Runs

/-! ## The end of a task -/

/-- The work of a task is over, with this end, and its slot is still taken. -/
def HasEnded (moment : Moment ν) (task : Nat) (ending : Ending ν) : Prop :=
  ∃ activity ∈ moment.busy, activity.task.number = task ∧ activity.stage = .ending ending

variable {moment : Moment ν} {task : Nat} {ending : Ending ν}

theorem HasEnded.settled {history : History ν} (ended : moment.HasEnded task ending)
    (sound : (moment.course history).Sound) : history.ending? task = some ending := by
  obtain ⟨activity, isBusy, rfl, isEnding⟩ := ended
  have decided : (activity.task.number, ending) ∈ moment.busy.filterMap Activity.decided? :=
    List.mem_filterMap.mpr ⟨activity, isBusy, by rw [Activity.decided?, isEnding]⟩
  exact sound.settled (activity.task.number, ending)
    (List.mem_append_left _ (List.mem_append_left _ (List.mem_append_left _ decided)))

theorem HasEnded.not_released {limit : Nat} (ended : moment.HasEnded task ending)
    (balanced : moment.places.Balanced limit) : task ∉ moment.released := by
  obtain ⟨activity, isBusy, rfl, isEnding⟩ := ended
  have holds : activity.task.number ∈ moment.runningTasks :=
    List.mem_append_left _
      (List.mem_filterMap.mpr ⟨activity, isBusy, by rw [Activity.holder?, isEnding]⟩)
  exact fun released => balanced.slotless_of_released released (List.mem_append_left _ holds)

/-- A slot is given back only by a task whose work is over. -/
theorem released_after {happening : Happening ν} (released : task ∈ (moment.after happening).released) :
    task ∈ moment.released ∨ ∃ ending, moment.HasEnded task ending := by
  cases happening with
  | submit work => exact .inl released
  | openGate number result => exact .inl released
  | dropHandle number => exact .inl released
  | collect => exact .inl released
  | begin place =>
      simp only [after] at released
      split at released
      · exact .inl released
      · rename_i turn found
        cases turn <;> exact .inl released
  | goOn place =>
      simp only [after] at released
      split at released
      · exact .inl released
      · rename_i activity found
        obtain ⟨other, stage⟩ := activity
        cases stage with
        | submitting children =>
            cases children with
            | cons child rest => exact .inl released
            | nil =>
                simp only [goOn, endSubmitting] at released
                split at released <;> exact .inl released
        | delivering result => exact .inl released
        | ending result =>
            rcases List.mem_append.mp released with already | isOther
            · exact .inl already
            · exact .inr ⟨result, ⟨other, .ending result⟩, List.mem_of_getElem? found,
                (List.mem_singleton.mp isOther).symm, rfl⟩

theorem exists_hasEnded {happenings : List (Happening ν)}
    (released : task ∈ (moment.play happenings).released) (notYet : task ∉ moment.released) :
    ∃ earlier later ending, happenings = earlier ++ later ∧
      (moment.play earlier).HasEnded task ending := by
  induction happenings generalizing moment with
  | nil => exact absurd released notYet
  | cons happening rest inductionHypothesis =>
      by_cases already : task ∈ (moment.after happening).released
      · rcases released_after already with before | ⟨ending, ended⟩
        · exact absurd before notYet
        · exact ⟨[], happening :: rest, ending, rfl, ended⟩
      · obtain ⟨earlier, later, ending, rfl, ended⟩ := inductionHypothesis released already
        exact ⟨happening :: earlier, later, ending, rfl, ended⟩

/-- When a task gives its slot back, the oldest task that waited has been admitted. -/
theorem oldest_admitted {limit oldest : Nat} {happenings : List (Happening ν)}
    (balanced : moment.places.Balanced limit) (isOldest : moment.run.waitingTasks.head? = some oldest)
    (notYet : task ∉ moment.released) (released : task ∈ (moment.play happenings).released) :
    oldest ∈ (moment.play happenings).run.startedTasks ++ (moment.play happenings).run.spawnedTasks := by
  have passes (given : List Nat) (state : moment.places.PassesTo oldest given) :
      (moment.play happenings).places.PassesTo oldest given := by
    clear isOldest notYet released
    induction happenings generalizing moment with
    | nil => exact state
    | cons happening rest inductionHypothesis =>
        have step : Places.Step False moment.places (moment.after happening).places :=
          step_after balanced.running_nodup happening False.elim
        exact inductionHypothesis (step.balanced balanced) (step.passesTo state)
  rcases passes moment.released (.inr ⟨isOldest, rfl⟩) with admitted | ⟨-, same⟩
  · exact admitted
  · exact absurd (same ▸ released) notYet

/-! ## Results -/

section Results

variable (requested : Nat) (happenings : List (Happening ν))

/-- What is the case once the result of a task can be seen. -/
structure Resolved (task : Nat) (ending : Ending ν) : Prop where
  /-- The result is the end of the task's own work. -/
  own : ((ofLimit requested).history happenings).ending? task = some ending
  ended : ∃ earlier later, happenings = earlier ++ later ∧
    ((ofLimit requested).play earlier).HasEnded task ending
  /-- The task is not among those whose slots are counted. -/
  slotless : task ∉ ((ofLimit requested).play happenings).runningTasks ++
    ((ofLimit requested).play happenings).run.spawnedTasks
  /-- Whichever task had waited longest when the work was over has been admitted. -/
  oldestAdmitted : ∀ earlier later, happenings = earlier ++ later →
    ((ofLimit requested).play earlier).HasEnded task ending →
    ∀ oldest, ((ofLimit requested).play earlier).run.waitingTasks.head? = some oldest →
      oldest ∈ ((ofLimit requested).play happenings).run.startedTasks ++
        ((ofLimit requested).play happenings).run.spawnedTasks

/-- The results that can be seen, and those that were seen, after all this happened. -/
structure ResultsInOrder : Prop where
  /-- The slots taken are those of the running tasks and of the admitted ones. -/
  slots : ((ofLimit requested).play happenings).run.queue.inFlight =
    (((ofLimit requested).play happenings).runningTasks ++
      ((ofLimit requested).play happenings).run.spawnedTasks).length
  resolved : ∀ result ∈ ((ofLimit requested).play happenings).run.endings,
    Resolved requested happenings result.1 result.2
  once : (((ofLimit requested).play happenings).run.endings.map Prod.fst).Nodup
  seen : ∀ result ∈ ((ofLimit requested).history happenings).seen,
    ((ofLimit requested).history happenings).Keeps result.1 ∧
      result ∈ ((ofLimit requested).play happenings).run.endings
  seenOnce : (((ofLimit requested).history happenings).seen.map Prod.fst).Nodup
  /-- A handle that is kept either was seen to resolve or is still looked at. -/
  kept : ∀ task, ((ofLimit requested).history happenings).Keeps task →
    task ∈ ((ofLimit requested).history happenings).seen.map Prod.fst ∨
      task ∈ ((ofLimit requested).play happenings).run.handles

end Results

theorem resolved_of_delivered {requested : Nat} {happenings : List (Happening ν)}
    (delivered : (task, ending) ∈ ((ofLimit requested).play happenings).run.endings) :
    Resolved requested happenings task ending := by
  have balancedAfter (past : List (Happening ν)) :=
    balanced_play (balanced_ofLimit (ν := ν) requested) past
  have sound := sound_play requested happenings
  have own : ((ofLimit requested).history happenings).ending? task = some ending :=
    sound.settled (task, ending) (List.mem_append_right _ delivered)
  have released : task ∈ ((ofLimit requested).play happenings).released :=
    sound.released.mem_iff.mp (List.mem_append_left _ (List.mem_map_of_mem delivered))
  refine ⟨own, ?_, ?_, ?_⟩
  · obtain ⟨earlier, later, result, split, ended⟩ := exists_hasEnded released (by simp [ofLimit])
    have settled := ended.settled (sound_play requested earlier)
    rw [split, history_append, History.ending?_append settled] at own
    exact ⟨earlier, later, split, Option.some.inj own ▸ ended⟩
  · exact (balancedAfter happenings).slotless_of_released released
  · rintro earlier later rfl ended oldest isOldest
    have continued : (ofLimit requested).play (earlier ++ later) =
        ((ofLimit requested).play earlier).play later := List.foldl_append
    rw [continued] at released ⊢
    exact oldest_admitted (balancedAfter earlier) isOldest
      (ended.not_released (balancedAfter earlier)) released

theorem resultsInOrder (requested : Nat) (happenings : List (Happening ν)) :
    ResultsInOrder requested happenings := by
  have balanced := balanced_play (balanced_ofLimit (ν := ν) requested) happenings
  have sound := sound_play requested happenings
  obtain ⟨-, handles, seen⟩ := accounted_play requested happenings
  have distinct := handles.nodup_iff.mpr (History.keptTasks_nodup _)
  refine ⟨?_, fun result delivered => resolved_of_delivered delivered, ?_, ?_, ?_, ?_⟩
  · rw [List.length_append]
    exact balanced.slots
  · exact (List.nodup_append.mp (sound.released.nodup_iff.mpr balanced.released_nodup)).1
  · intro result member
    have isSeen := List.mem_map_of_mem (f := Prod.fst) member
    refine ⟨History.keeps_iff.mpr ⟨handles.mem_iff.mp (List.mem_append_right _ isSeen), ?_⟩,
      seen result member⟩
    intro dropped
    exact (List.nodup_append.mp distinct).2.2 _ (List.mem_append_right _ dropped) _ isSeen rfl
  · exact (List.nodup_append.mp distinct).2.1
  · intro task keeps
    obtain ⟨kept, notDropped⟩ := History.keeps_iff.mp keeps
    rcases List.mem_append.mp (handles.mem_iff.mpr kept) with held | isSeen
    · exact .inr ((List.mem_append.mp held).resolve_right notDropped)
    · exact .inl isSeen

/-- In every interleaving, and so in every driven run, a handle resolves at most once, after the work of
its own task is over, and to the end of that work. Before the result can be seen the slot has gone back:
the task is no longer counted, and the task that had waited longest has been admitted. -/
theorem results_follow_release (requested : Nat) :
    (∀ happenings : List (Happening ν), ResultsInOrder requested happenings) ∧
    ∀ steps : List (Step ν), ∃ happenings : List (Happening ν),
      (∀ happening ∈ happenings, happening.InOrder) ∧
      (ofLimit requested).play happenings = atRest ((Run.ofLimit requested).steps steps).2 ∧
      (ofLimit requested).history happenings = (Run.ofLimit requested).history steps ∧
      ResultsInOrder requested happenings := by
  refine ⟨resultsInOrder requested, fun steps => ?_⟩
  obtain ⟨happenings, inOrder, reached, sameHistory⟩ := reaches_steps (Run.ofLimit requested) steps
  exact ⟨happenings, inOrder, reached, sameHistory, resultsInOrder requested happenings⟩

end Moment

end PeerLink.Throttle
