import Mathlib.Data.List.Perm.Basic
import PeerLink.Proofs.Observer.Audience
import PeerLink.Proofs.Observer.Calm

/-!
Contract: observers are told once, and in order.

Owns: what is promised of the observers, and that every run keeps it.

Does not own: the phases of a run, from which all of it follows.
-/

namespace PeerLink.AudienceRun

/-! ## What is promised -/

/-- How the account goes on after the announcement of a record in a run. -/
structure Follows (start : AudienceRun) (record : DisconnectRecord) (run : AudienceRun)
    (entries : List ObserverEntry) : Prop where
  account : run.audience.account = start.audience.account ++ entries
  /-- Those who wait are told in the order of their ids, up to the first failure. -/
  inOrder : ((notices entries).filter fun notice => notice.1.value < start.taken) <+: start.remaining
  all : run.Delivered →
    ((notices entries).filter fun notice => notice.1.value < start.taken) = start.remaining
  /-- Those who subscribe later are told before their subscription does anything else. -/
  atOnce : ∀ before after id observer, entries = before ++ .enrolled id observer :: after →
    ∃ rest, after = .notified id observer record :: rest

structure ToldOnce (run : AudienceRun) : Prop where
  consecutive : (enrolments run.audience.account).map Prod.fst = idsUpTo run.taken
  /-- A subscription takes the next id and answers with it. It fails only if its observer is called
  at once and fails. -/
  grants : ∀ observer, run.taken + 1 < SubscriptionId.count →
    (∃ entries, (run.audience.subscribe observer).2.account =
      run.audience.account ++ .enrolled ⟨run.taken⟩ observer.name :: entries) ∧
    ((run.audience.subscribe observer).1 = .ok ⟨run.taken⟩ ∨
      run.record?.isSome ∧ ∃ failure, (run.audience.subscribe observer).1 = .error failure)
  exhausts : ∀ observer, SubscriptionId.count ≤ run.taken + 1 →
    run.audience.subscribe observer = (.error SubscriptionId.exhausted, run.audience)
  /-- Nobody is told anything but the first announced record, and nobody before it is announced. -/
  first : ∀ id observer record, .notified id observer record ∈ run.audience.account →
    run.record? = some record ∧ (id, observer) ∈ enrolments run.audience.account
  once : ((notices run.audience.account).map Prod.fst).Nodup
  removedIsNotTold : ∀ notice ∈ notices run.audience.account, notice.1 ∉ run.removed
  /-- The first announcement is effective, unless an observer fails in it. -/
  effective : run.record? = none → ∀ record, (run.audience.announce record).1 = .ok true ∨
    ∃ failure, (run.audience.announce record).1 = .error failure
  ineffective : run.record?.isSome → ∀ record, run.audience.announce record = (.ok false, run.audience)
  /-- From inside an observer nothing is announced and nobody is removed. -/
  nested : ∀ observer deed, .did observer deed ∈ run.audience.account → deed.IsIdle run.taken
  unlessFailed : run.record?.isSome → run.Delivered ∨ run.Failed
  everyone : run.Delivered → ∀ enrolment ∈ run.remaining, enrolment ∈ notices run.audience.account
  follows : run.record? = none → ∀ record calls,
    ∃ entries, Follows run record ((run.after (.announce record)).play calls) entries

/-! ## The promises -/

theorem notices_entry (observers : List Enrolment) : notices (observers.map Enrolment.entry) = [] := by
  induction observers with
  | nil => rfl
  | cons _ _ inductionHypothesis => exact inductionHypothesis

namespace Unannounced

variable {run : AudienceRun}

theorem notices_eq (quiet : Unannounced run) : notices run.audience.account = [] := by
  rw [quiet.account]
  exact notices_entry _

theorem mem_account (quiet : Unannounced run) {entry : ObserverEntry}
    (member : entry ∈ run.audience.account) : ∃ id observer, entry = .enrolled id observer := by
  rw [quiet.account] at member
  obtain ⟨enrolment, -, rfl⟩ := List.mem_map.mp member
  exact ⟨_, _, rfl⟩

end Unannounced

namespace Told

variable {start run : AudienceRun} {record : DisconnectRecord} {called : List Enrolment}
  {entries : List ObserverEntry}

theorem enrolments_eq (told : Told start record called entries run) :
    enrolments run.audience.account = enrolments start.audience.account ++ enrolments entries := by
  rw [told.account]
  exact List.filterMap_append

theorem notices_eq (told : Told start record called entries run) (quiet : Unannounced start) :
    notices run.audience.account = notices entries := by
  rw [told.account]
  refine List.filterMap_append.trans ?_
  rw [show List.filterMap _ start.audience.account = [] from quiet.notices_eq]
  rfl

theorem consecutive (told : Told start record called entries run) (quiet : Unannounced start) :
    (enrolments run.audience.account).map Prod.fst = idsUpTo run.taken := by
  rw [told.enrolments_eq, List.map_append, quiet.consecutive]
  exact told.aftermath.consecutive

theorem mem_called (told : Told start record called entries run) {enrolment : Enrolment}
    (member : enrolment ∈ called) :
    enrolment ∈ enrolments start.audience.account ∧ enrolment.1 ∉ start.removed := by
  obtain ⟨enrolled, kept⟩ := List.mem_filter.mp (told.isPrefix.subset member)
  exact ⟨enrolled, of_decide_eq_true kept⟩

theorem mem_notices (told : Told start record called entries run) (quiet : Unannounced start)
    {notice : Enrolment} :
    notice ∈ notices run.audience.account ↔ notice ∈ called ∨ notice ∈ enrolments entries := by
  rw [told.notices_eq quiet, told.aftermath.told_perm.mem_iff, List.mem_append]

/-- Those who are told are among those who enrolled, each at most once. -/
theorem told_sublist (told : Told start record called entries run) :
    (called ++ enrolments entries).Sublist (enrolments run.audience.account) := by
  rw [told.enrolments_eq]
  apply List.Sublist.append _ (List.Sublist.refl _)
  exact told.isPrefix.sublist.trans List.filter_sublist

theorem nodup_notices (told : Told start record called entries run) (quiet : Unannounced start) :
    ((notices run.audience.account).map Prod.fst).Nodup := by
  rw [told.notices_eq quiet, (told.aftermath.told_perm.map Prod.fst).nodup_iff]
  refine (told.told_sublist.map Prod.fst).nodup ?_
  rw [told.consecutive quiet]
  exact nodup_idsUpTo _

/-- Who enrols after the announcement has an id that was never removed. -/
theorem late_not_removed (told : Told start record called entries run) (quiet : Unannounced start)
    {enrolment : Enrolment} (late : enrolment ∈ enrolments entries) :
    enrolment.1 ∉ start.removed := by
  intro removed
  have distinct := nodup_idsUpTo run.taken
  rw [← told.aftermath.consecutive] at distinct
  have apart := (List.nodup_append.mp distinct).2.2
  exact apart _ (mem_idsUpTo.mpr (quiet.removed _ removed)) _ (List.mem_map_of_mem late) rfl

theorem follows (told : Told start record called entries run) (quiet : Unannounced start) :
    Follows start record run entries := by
  have earlier : ∀ enrolment ∈ called, enrolment.1.value < start.taken := fun enrolment member =>
    quiet.value_lt (told.mem_called member).1
  have inOrder := told.aftermath.told_in_order earlier (Nat.le_refl _)
  constructor
  · exact told.account
  · rw [inOrder]
    exact told.isPrefix
  · intro delivered
    rw [inOrder]
    exact told.all delivered
  · intro before after id observer split
    exact told.aftermath.told_at_once split

end Told

theorem Unannounced.toldOnce {run : AudienceRun} (quiet : Unannounced run) : ToldOnce run := by
  obtain ⟨observers, waits, -⟩ := quiet.waits
  have unrecorded (recorded : run.record?.isSome) : False := by
    rw [quiet.record] at recorded
    cases recorded
  exact {
    consecutive := quiet.consecutive
    grants := by
      intro observer supply
      rw [Audience.subscribe_of_waiting observer waits supply]
      exact ⟨⟨[], rfl⟩, .inl rfl⟩
    exhausts := by
      intro observer usedUp
      exact Audience.subscribe_of_exhausted observer usedUp
    first := by
      intro id observer record member
      obtain ⟨_, _, same⟩ := quiet.mem_account member
      cases same
    once := by
      rw [quiet.notices_eq]
      exact List.nodup_nil
    removedIsNotTold := by
      rw [quiet.notices_eq]
      intro notice member
      cases member
    effective := by
      intro _ record
      rw [Audience.announce_of_waiting record waits]
      generalize (Registry.callEach _ _ _).1 = failure?
      cases failure? with
      | none => exact .inl rfl
      | some failure => exact .inr ⟨failure, rfl⟩
    ineffective := fun recorded => (unrecorded recorded).elim
    nested := by
      intro observer deed member
      obtain ⟨_, _, same⟩ := quiet.mem_account member
      cases same
    unlessFailed := fun recorded => (unrecorded recorded).elim
    everyone := fun delivered => absurd delivered (not_delivered quiet.record)
    follows := by
      intro _ record calls
      obtain ⟨called, entries, told⟩ := quiet.announce record
      obtain ⟨more, later⟩ := told.play calls
      exact ⟨entries ++ more, later.follows quiet⟩ }

theorem Told.toldOnce {start run : AudienceRun} {record : DisconnectRecord}
    {called : List Enrolment} {entries : List ObserverEntry}
    (told : Told start record called entries run) (quiet : Unannounced start) : ToldOnce run := by
  have quietStart (entry : ObserverEntry) (member : entry ∈ run.audience.account) :
      (∃ id observer, entry = .enrolled id observer) ∨ entry ∈ entries := by
    rw [told.account] at member
    rcases List.mem_append.mp member with before | after
    · exact .inl (quiet.mem_account before)
    · exact .inr after
  have recorded : ¬ run.record? = none := by
    rw [told.record]
    exact Option.some_ne_none record
  exact {
    consecutive := told.consecutive quiet
    grants := by
      intro observer supply
      rw [Audience.subscribe_of_announced observer told.announced supply]
      obtain ⟨more, account, -⟩ := (Announced.leads_run observer.name observer.script _).adds
      refine ⟨⟨.notified ⟨run.taken⟩ observer.name record :: more, ?_⟩, ?_⟩
      · refine account.trans ?_
        simp [Announced.note, Audience.announcedWith, taken]
      · generalize (Announced.call _ _).1 = failure?
        cases failure? with
        | none => exact .inl rfl
        | some failure => exact .inr ⟨by rw [told.record]; rfl, failure, rfl⟩
    exhausts := by
      intro observer usedUp
      exact Audience.subscribe_of_exhausted observer usedUp
    first := by
      intro id observer other member
      rcases quietStart _ member with ⟨_, _, same⟩ | after
      · cases same
      · rw [told.aftermath.record_of_mem after]
        refine ⟨told.record, told.told_sublist.subset ?_⟩
        have notice : (id, observer) ∈ notices run.audience.account :=
          List.mem_filterMap.mpr ⟨_, member, rfl⟩
        exact List.mem_append.mpr ((told.mem_notices quiet).mp notice)
    once := told.nodup_notices quiet
    removedIsNotTold := by
      intro notice member
      rw [told.removed]
      rcases (told.mem_notices quiet).mp member with waited | late
      · exact (told.mem_called waited).2
      · exact told.late_not_removed quiet late
    effective := fun absent => absurd absent recorded
    ineffective := by
      intro _ other
      exact Audience.announce_of_announced other told.announced
    nested := by
      intro observer deed member
      rcases quietStart _ member with ⟨_, _, same⟩ | after
      · cases same
      · exact told.aftermath.idle_of_mem after
    unlessFailed := fun _ => told.unlessFailed
    everyone := by
      intro delivered enrolment member
      obtain ⟨enrolled, kept⟩ := List.mem_filter.mp member
      rw [told.removed] at kept
      rw [told.enrolments_eq] at enrolled
      apply (told.mem_notices quiet).mpr
      rcases List.mem_append.mp enrolled with before | late
      · rw [told.all delivered]
        exact .inl (List.mem_filter.mpr ⟨before, kept⟩)
      · exact .inr late
    follows := fun absent => absurd absent recorded }

/-- Whatever is called, and whatever the observers do when they are called, to any depth: every
observer is told at most once, of the first announced record, and as long as nobody fails each that
remains is told. Calls without failing scripts are all answered while there are ids enough. -/
theorem told_once (calls : List AudienceCall) :
    ToldOnce (play {} calls) ∧
      ((∀ call ∈ calls, call.mayFail = false) →
        total AudienceCall.subscriptions calls < SubscriptionId.count →
        ¬ (play {} calls).Failed ∧ ((play {} calls).record?.isSome →
          ∀ enrolment ∈ (play {} calls).remaining,
            enrolment ∈ notices (play {} calls).audience.account)) := by
  have promised : ToldOnce (play {} calls) := by
    rcases inPhase_play calls with quiet | ⟨start, record, called, entries, quiet, told⟩
    · exact quiet.toldOnce
    · exact told.toldOnce quiet
  refine ⟨promised, fun harmless supply => ?_⟩
  have calm : Calm {} (total AudienceCall.subscriptions calls) := by
    constructor
    · intro observer member
      cases member
    · rw [show taken {} + total ScriptedObserver.demand _ = 0 from rfl, Nat.zero_add]
      exact supply
  have unharmed : ¬ (play {} calls).Failed := by
    apply calm.play calls harmless
    rintro ⟨entry, member, -⟩
    cases member
  refine ⟨unharmed, fun recorded => ?_⟩
  rcases promised.unlessFailed recorded with delivered | failed
  · exact promised.everyone delivered
  · exact absurd failed unharmed

/-- Observer 0 subscribes a nested observer from inside, and announces and removes to no effect;
observer 1 is removed in time, observer 2 waits and observer 4 comes too late to wait. -/
def nestedCalls : List AudienceCall :=
  [.subscribe ⟨"zero", .subscribe "nested" (.look .done)
      (.announce .remoteClose (.unsubscribe ⟨2⟩ .done))⟩,
    .subscribe ⟨"one", .done⟩, .subscribe ⟨"two", .done⟩, .unsubscribe ⟨1⟩,
    .announce ⟨some .shutdown, true⟩, .announce .remoteClose, .subscribe ⟨"four", .done⟩,
    .unsubscribe ⟨2⟩]

theorem told_once_nestedCalls :
    notices (play {} nestedCalls).audience.account =
        [(⟨0⟩, "zero"), (⟨3⟩, "nested"), (⟨2⟩, "two"), (⟨4⟩, "four")] ∧
      (play {} nestedCalls).removed = [⟨1⟩] ∧ ¬ (play {} nestedCalls).Failed ∧
      ToldOnce (play {} nestedCalls) := by
  have supply : total AudienceCall.subscriptions nestedCalls < SubscriptionId.count := by decide
  obtain ⟨promised, answered⟩ := told_once nestedCalls
  exact ⟨rfl, rfl, (answered (by decide) supply).1, promised⟩

end PeerLink.AudienceRun
