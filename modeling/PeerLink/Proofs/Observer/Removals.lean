import PeerLink.Proofs.Observer.Chronicle
import PeerLink.Proofs.Observer.Told

/-!
Contract: what a request to remove an observer is worth.

A request from outside keeps the observer from being called afterwards, whatever the answer. A request
from inside an observer does not: the announcement that is calling observers holds on to all those it
took out of the registry, and goes on to call them.

Owns: which observers are called after their removal was asked for.

Does not own: the chronicle, and what is promised of observers regardless of requests.
-/

namespace PeerLink

theorem mem_toldIn {moments : List Moment} {id : SubscriptionId} :
    id ∈ toldIn moments ↔ ∃ observer, (id, observer) ∈ notices (entries moments) := by
  unfold toldIn
  rw [List.mem_map]
  constructor
  · rintro ⟨⟨_, observer⟩, member, rfl⟩
    exact ⟨observer, member⟩
  · rintro ⟨observer, member⟩
    exact ⟨_, member, rfl⟩

theorem toldIn_removal_cons (requester : Option String) (id : SubscriptionId) (found : Bool)
    (moments : List Moment) : toldIn (.removal requester id found :: moments) = toldIn moments := by
  cases requester <;> rfl

/-- An enrolment of a chronicle is one of the account. -/
theorem enrolled_of_mem {moments : List Moment} {id : SubscriptionId} {observer : String}
    (member : .noted (.enrolled id observer) ∈ moments) :
    (id, observer) ∈ enrolments (entries moments) :=
  List.mem_filterMap.mpr ⟨_, List.mem_filterMap.mpr ⟨_, member, rfl⟩, rfl⟩

namespace AudienceRun

theorem toldOnce_play (calls : List AudienceCall) : ToldOnce (play {} calls) := by
  rcases inPhase_play calls with quiet | ⟨start, record, called, entries, quiet, told⟩
  · exact quiet.toldOnce
  · exact told.toldOnce quiet

theorem account_chronicle (calls : List AudienceCall) :
    (play {} calls).audience.account = entries (Audience.chronicle {} calls) :=
  (chronicled {} calls).1

theorem removed_chronicle (calls : List AudienceCall) :
    (play {} calls).removed = removals (Audience.chronicle {} calls) :=
  (chronicled {} calls).2

/-! ## Requests from outside -/

/-- Of the observers that enrolled already, an aftermath tells none that was not told before. -/
theorem Told.told_before {start run ended : AudienceRun} {record : DisconnectRecord}
    {called : List Enrolment} {entries more : List ObserverEntry} (quiet : Unannounced start)
    (told : Told start record called entries run)
    (last : Told start record called (entries ++ more) ended) {id : SubscriptionId}
    {observer late : String} (enrolled : (id, observer) ∈ enrolments run.audience.account)
    (notified : (id, late) ∈ notices ended.audience.account) :
    id ∈ (notices run.audience.account).map Prod.fst := by
  rcases (last.mem_notices quiet).mp notified with waited | enrolledLate
  · exact List.mem_map_of_mem ((told.mem_notices quiet).mpr (.inl waited))
  · rw [told.enrolments_eq] at enrolled
    rcases List.mem_append.mp enrolled with early | recent
    · -- Its id was taken before the announcement, so nobody takes it afterwards.
      have distinct := nodup_idsUpTo ended.taken
      rw [← last.consecutive quiet, last.enrolments_eq, List.map_append] at distinct
      have apart := (List.nodup_append.mp distinct).2.2
      exact absurd rfl (apart id (List.mem_map_of_mem (f := Prod.fst) early) id
        (List.mem_map_of_mem (f := Prod.fst) enrolledLate))
    · have notice := (told.mem_notices quiet).mpr (.inr recent)
      exact List.mem_map_of_mem (f := Prod.fst) notice

theorem Unannounced.mem_removed_after {run : AudienceRun} (quiet : Unannounced run)
    {id : SubscriptionId} {observer : String}
    (enrolled : (id, observer) ∈ enrolments run.audience.account) :
    id ∈ (run.after (.unsubscribe id)).removed := by
  rw [quiet.removed_unsubscribe]
  by_cases gone : id ∈ run.removed
  · exact List.mem_append_left _ gone
  · have remains : (id, observer) ∈ run.remaining :=
      List.mem_filter.mpr ⟨enrolled, decide_eq_true gone⟩
    have found : run.remaining.any (·.1 == id) = true :=
      List.any_eq_true.mpr ⟨_, remains, beq_self_eq_true id⟩
    rw [if_pos found]
    exact List.mem_append_right _ (List.mem_singleton.mpr rfl)

/-- An enrolled observer is not called after a request from outside. -/
theorem not_told_after_unsubscribe (earlier later : List AudienceCall) {id : SubscriptionId}
    {observer : String}
    (enrolled : (id, observer) ∈ enrolments (play {} earlier).audience.account) :
    id ∉ toldIn (((play {} earlier).after (.unsubscribe id)).audience.chronicle later) := by
  intro told
  obtain ⟨name, notice⟩ := mem_toldIn.mp told
  have promised : ToldOnce (((play {} earlier).after (.unsubscribe id)).play later) := by
    have whole := toldOnce_play (earlier ++ .unsubscribe id :: later)
    rw [play, List.foldl_append] at whole
    exact whole
  obtain ⟨account, removed⟩ := chronicled ((play {} earlier).after (.unsubscribe id)) later
  have notices_eq : notices (((play {} earlier).after (.unsubscribe id)).play later).audience.account =
      notices (play {} earlier).audience.account ++ notices (entries
        (((play {} earlier).after (.unsubscribe id)).audience.chronicle later)) := by
    rw [account]
    exact List.filterMap_append
  have notified := List.mem_append_right (notices (play {} earlier).audience.account) notice
  rw [← notices_eq] at notified
  rcases inPhase_play earlier with quiet | ⟨start, record, called, entries, quiet, announced⟩
  · apply promised.removedIsNotTold _ notified
    rw [removed]
    exact List.mem_append_left _ (quiet.mem_removed_after enrolled)
  · obtain ⟨more, last⟩ := announced.play (.unsubscribe id :: later)
    have before := announced.told_before quiet last enrolled notified
    have distinct := promised.once
    rw [notices_eq, List.map_append] at distinct
    exact (List.nodup_append.mp distinct).2.2 _ before _ (List.mem_map_of_mem notice) rfl

/-! ## Requests from inside -/

/-- A request is made inside an observer only when a record is announced, and then nobody is removed
any more. -/
theorem removals_of_request {earlier : List AudienceCall} (later : List AudienceCall)
    {call : AudienceCall} {requester : String} {id : SubscriptionId} {found : Bool}
    (member : .removal (some requester) id found ∈ (play {} earlier).audience.moments call) :
    found = false ∧ (play {} (earlier ++ call :: later)).removed = (play {} earlier).removed := by
  have nested : ∀ moment ∈ (play {} earlier).audience.moments call, moment.IsNested := by
    intro moment among
    rcases Audience.nested_of_mem_moments among with nested | ⟨other, rfl, -⟩
    · exact nested
    · cases List.mem_singleton.mp member
  refine ⟨(nested _ member).2, ?_⟩
  have unchanged := (play {} earlier).removed_after_moments call
  rw [removals_of_nested nested, List.append_nil] at unchanged
  rw [← unchanged]
  have deed : .did requester (.unsubscribed found) ∈
      ((play {} earlier).after call).audience.account := by
    rw [show ((play {} earlier).after call).audience.account = _ from
      (play {} earlier).audience.account_perform call]
    exact List.mem_append_right _ (List.mem_filterMap.mpr ⟨_, member, rfl⟩)
  rcases (inPhase_play earlier).after call with quiet | ⟨start, record, called, entries, -, told⟩
  · obtain ⟨_, _, same⟩ := quiet.mem_account deed
    cases same
  · obtain ⟨more, last⟩ := told.play later
    rw [play, List.foldl_append]
    exact last.removed.trans told.removed.symm

/-! ## What a request is worth -/

section Requests

variable {calls : List AudienceCall} {before after : List Moment} {requester : Option String}
  {id : SubscriptionId} {found : Bool} {observer : String}
  (split : Audience.chronicle {} calls = before ++ .removal requester id found :: after)

include split

theorem told_of_split : (notices (play {} calls).audience.account).map Prod.fst =
    toldIn before ++ toldIn after := by
  rw [account_chronicle, split]
  refine (toldIn_append _ _).trans ?_
  rw [toldIn_removal_cons]

/-- Nobody is called both before a request and after it. -/
theorem not_told_before (told : id ∈ toldIn after) : id ∉ toldIn before := by
  intro already
  have distinct := (toldOnce_play calls).once
  rw [told_of_split split] at distinct
  exact (List.nodup_append.mp distinct).2.2 _ already _ told rfl

/-- Nobody that was removed before a request is called after it. -/
theorem not_removed_before (told : id ∈ toldIn after) : id ∉ removals before := by
  intro removed
  have among := List.mem_append_right (toldIn before) told
  rw [← told_of_split split] at among
  obtain ⟨notice, member, rfl⟩ := List.mem_map.mp among
  apply (toldOnce_play calls).removedIsNotTold notice member
  rw [removed_chronicle, split, removals_append]
  exact List.mem_append_left _ removed

/-- A request after which an enrolled observer is called came from inside an observer, and was answered
with no. -/
theorem inside_of_told (enrolled : .noted (.enrolled id observer) ∈ before)
    (told : id ∈ toldIn after) : requester.isSome ∧ found = false := by
  obtain ⟨earlier, call, later, start, ending, rfl, moments, rfl, rfl⟩ := call_of_chronicle {} split
  have asked : .removal requester id found ∈ (play {} earlier).audience.moments call := by
    rw [moments]
    exact List.mem_append_right _ List.mem_cons_self
  cases requester with
  | some requester => exact ⟨rfl, (removals_of_request later asked).1⟩
  | none =>
      exfalso
      rcases Audience.nested_of_mem_moments asked with nested | ⟨other, rfl, same⟩
      · cases nested.1
      · obtain rfl : id = other := (Moment.removal.inj same).2.1
        -- The request is the only moment of its call.
        obtain ⟨rfl, rfl⟩ : start = [] ∧ ending = [] := by
          rcases start with - | ⟨_, start⟩
          · exact ⟨rfl, (List.cons.inj moments).2.symm⟩
          · cases start <;> cases moments
        have enrolment := enrolled_of_mem enrolled
        rw [List.append_nil, ← account_chronicle] at enrolment
        exact not_told_after_unsubscribe earlier later enrolment told

/-- Nobody is removed after a request from inside an observer, so that an enrolled observer that was not
removed before remains. -/
theorem remains_after_request (enrolled : .noted (.enrolled id observer) ∈ before)
    (isNested : requester.isSome) (notRemoved : id ∉ removals before) :
    (id, observer) ∈ (play {} calls).remaining := by
  obtain ⟨requester, rfl⟩ := Option.isSome_iff_exists.mp isNested
  have enrolment : (id, observer) ∈ enrolments (play {} calls).audience.account := by
    rw [account_chronicle, split, entries_append, enrolments, List.filterMap_append]
    exact List.mem_append_left _ (enrolled_of_mem enrolled)
  obtain ⟨earlier, call, later, start, ending, rfl, moments, rfl, rfl⟩ := call_of_chronicle {} split
  have asked : .removal (some requester) id found ∈ (play {} earlier).audience.moments call := by
    rw [moments]
    exact List.mem_append_right _ List.mem_cons_self
  have present : id ∉ (play {} (earlier ++ call :: later)).removed := by
    intro removed
    apply notRemoved
    rw [(removals_of_request later asked).2, removed_chronicle] at removed
    rw [removals_append]
    exact List.mem_append_left _ removed
  exact List.mem_filter.mpr ⟨enrolment, decide_eq_true present⟩

end Requests

/-- An enrolled observer is called after a request for its removal only if the request came from inside
an observer while it was still to be called, and then, although it is still enrolled and was not called
yet, the answer is no. Such an observer is called, unless a failure ends the announcement first. -/
theorem told_after_request (calls : List AudienceCall) (before after : List Moment)
    (requester : Option String) (id : SubscriptionId) (found : Bool) (observer : String)
    (split : Audience.chronicle {} calls = before ++ .removal requester id found :: after)
    (enrolled : .noted (.enrolled id observer) ∈ before) :
    let overlooked := requester.isSome ∧ id ∉ toldIn before ∧ id ∉ removals before
    (id ∈ toldIn after → overlooked ∧ found = false) ∧
      ((play {} calls).Delivered → overlooked → id ∈ toldIn after) := by
  intro overlooked
  constructor
  · intro told
    obtain ⟨isNested, refused⟩ := inside_of_told split enrolled told
    exact ⟨⟨isNested, not_told_before split told, not_removed_before split told⟩, refused⟩
  · rintro delivered ⟨isNested, notTold, notRemoved⟩
    have remains := remains_after_request split enrolled isNested notRemoved
    have told := List.mem_map_of_mem (f := Prod.fst)
      ((toldOnce_play calls).everyone delivered _ remains)
    rw [told_of_split split] at told
    exact (List.mem_append.mp told).resolve_left notTold

/-- Observer 0 asks for the removal of observer 1, which is removed already, of itself, of observer 2
and of one it subscribes itself. -/
def requestsFromInside : List AudienceCall :=
  [.subscribe ⟨"zero", .unsubscribe ⟨1⟩ (.unsubscribe ⟨0⟩ (.unsubscribe ⟨2⟩
      (.subscribe "nested" (.unsubscribe ⟨3⟩ .done) .done)))⟩,
    .subscribe ⟨"one", .done⟩, .subscribe ⟨"two", .look .done⟩, .unsubscribe ⟨1⟩,
    .announce ⟨some .shutdown, true⟩, .unsubscribe ⟨2⟩]

/-- Of these only the request for observer 2 is overlooked. -/
theorem told_after_request_fromInside :
    ∃ before after, Audience.chronicle {} requestsFromInside =
        before ++ .removal (some "zero") ⟨2⟩ false :: after ∧
      .noted (.enrolled ⟨2⟩ "two") ∈ before ∧ (⟨2⟩ : SubscriptionId) ∈ toldIn after ∧
      (⟨1⟩ : SubscriptionId) ∉ toldIn after := by
  let moments := Audience.chronicle {} requestsFromInside
  have delivered : (play {} requestsFromInside).Delivered :=
    ⟨⟨some .shutdown, true⟩, by decide⟩
  refine ⟨moments.take 7, moments.drop 8, rfl, by decide, ?_, by decide⟩
  obtain ⟨-, called⟩ := told_after_request requestsFromInside (moments.take 7) (moments.drop 8)
    (some "zero") ⟨2⟩ false "two" rfl (by decide)
  exact called delivered (by decide)

/-- An observer that asks for the removal of the one behind it. -/
def requestAhead : List AudienceCall :=
  [.subscribe ⟨"first", .unsubscribe ⟨1⟩ .done⟩, .subscribe ⟨"second", .done⟩,
    .announce ⟨none, false⟩]

/-- The observer behind is enrolled, and neither removed nor called, when its removal is asked for and
answered with no; it is called afterwards. -/
theorem called_after_request :
    ∃ before after, Audience.chronicle {} requestAhead =
        before ++ .removal (some "first") ⟨1⟩ false :: after ∧
      .noted (.enrolled ⟨1⟩ "second") ∈ before ∧ (⟨1⟩ : SubscriptionId) ∉ toldIn before ∧
      (⟨1⟩ : SubscriptionId) ∉ removals before ∧
      after = [.noted (.notified ⟨1⟩ "second" ⟨none, false⟩)] :=
  ⟨(Audience.chronicle {} requestAhead).take 3, (Audience.chronicle {} requestAhead).drop 4, rfl,
    by decide, by decide, by decide, rfl⟩

end AudienceRun

end PeerLink
