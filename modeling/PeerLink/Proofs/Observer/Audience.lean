import PeerLink.Proofs.Observer.Aftermath

/-!
Contract: the two phases of an audience.

A run is a sequence of calls on an audience. Until the first announcement it only enrols and removes
observers; what follows the first announcement is an aftermath of it, whatever the observers do and
whatever is called later.

Owns: runs, what a single call does, and the phases.

Does not own: what observers do when they are called.
-/

namespace PeerLink

/-! ## Runs -/

/-- A call on an audience. -/
inductive AudienceCall where
  | subscribe (observer : ScriptedObserver)
  | unsubscribe (id : SubscriptionId)
  | announce (record : DisconnectRecord)
deriving DecidableEq, Repr

namespace AudienceCall

def announcement? : AudienceCall → Option DisconnectRecord
  | announce record => some record
  | subscribe _ | unsubscribe _ => none

/-- The id that a call removed, to judge by its answer. -/
def removal? : AudienceCall → Except String ObserverDeed → Option SubscriptionId
  | unsubscribe id, .ok (.unsubscribed true) => some id
  | _, _ => none

end AudienceCall

def Audience.perform (audience : Audience) : AudienceCall → Except String ObserverDeed × Audience
  | .subscribe observer =>
      let (answer, later) := audience.subscribe observer
      (answer.map .subscribed, later)
  | .unsubscribe id =>
      let (found, later) := audience.unsubscribe id
      (.ok (.unsubscribed found), later)
  | .announce record =>
      let (answer, later) := audience.announce record
      (answer.map .announced, later)

/-- An audience, and the calls that were made on it, with their answers. -/
structure AudienceRun where
  answered : List (AudienceCall × Except String ObserverDeed) := []
  audience : Audience := {}

namespace AudienceRun

def after (run : AudienceRun) (call : AudienceCall) : AudienceRun :=
  let (answer, later) := run.audience.perform call
  ⟨run.answered ++ [(call, answer)], later⟩

def play (run : AudienceRun) (calls : List AudienceCall) : AudienceRun := calls.foldl after run

/-- The number of ids that were taken. -/
def taken (run : AudienceRun) : Nat := run.audience.registry.nextId.value

/-- The record of the first announcement, if there was one. -/
def record? (run : AudienceRun) : Option DisconnectRecord :=
  run.answered.findSome? fun entry => entry.1.announcement?

/-- The ids whose removal was answered with yes. -/
def removed (run : AudienceRun) : List SubscriptionId :=
  run.answered.filterMap fun entry => entry.1.removal? entry.2

/-- The observers that subscribed and were not removed. -/
def remaining (run : AudienceRun) : List Enrolment :=
  (enrolments run.audience.account).filter fun enrolment => enrolment.1 ∉ run.removed

/-- An announcement was made, and no observer failed in it. -/
def Delivered (run : AudienceRun) : Prop :=
  ∃ record, (.announce record, .ok (.announced true)) ∈ run.answered

/-- A call was answered with the failure of an observer, or for want of ids. -/
def Failed (run : AudienceRun) : Prop := ∃ entry ∈ run.answered, ∃ failure, entry.2 = .error failure

/-! ## One more call -/

section After

variable (run : AudienceRun)

theorem record?_after (call : AudienceCall) :
    (run.after call).record? = run.record?.or call.announcement? := by
  show List.findSome? _ (run.answered ++ [(call, (run.audience.perform call).1)]) = _
  rw [List.findSome?_append]
  congr 1
  unfold List.findSome?
  cases call.announcement? <;> rfl

theorem removed_after (call : AudienceCall) :
    (run.after call).removed =
      run.removed ++ (call.removal? (run.audience.perform call).1).toList := by
  show List.filterMap _ (run.answered ++ [(call, (run.audience.perform call).1)]) = _
  rw [List.filterMap_append]
  rfl

theorem removed_after_of_none {call : AudienceCall}
    (removes : call.removal? (run.audience.perform call).1 = none) :
    (run.after call).removed = run.removed := by
  rw [removed_after, removes]
  exact List.append_nil _

theorem delivered_after {call : AudienceCall} (delivered : (run.after call).Delivered) :
    run.Delivered ∨ ∃ record, call = .announce record ∧
      (run.audience.perform call).1 = .ok (.announced true) := by
  obtain ⟨record, member⟩ := delivered
  rcases List.mem_append.mp member with earlier | now
  · exact .inl ⟨record, earlier⟩
  · obtain ⟨isAnnouncement, answer⟩ := Prod.mk.inj (List.mem_singleton.mp now)
    exact .inr ⟨record, isAnnouncement.symm, answer.symm⟩

end After

end AudienceRun

/-! ## Single calls -/

namespace Audience

variable {audience : Audience}

theorem subscribe_of_exhausted (observer : ScriptedObserver)
    (usedUp : SubscriptionId.count ≤ audience.registry.nextId.value + 1) :
    audience.subscribe observer = (.error SubscriptionId.exhausted, audience) := by
  unfold subscribe Registry.subscribe? SubscriptionId.next?
  rw [if_neg (Nat.not_lt.mpr usedUp)]
  rfl

theorem subscribe_of_waiting {observers : List (SubscriptionId × ScriptedObserver)}
    (observer : ScriptedObserver) (waits : audience.registry.phase = .waiting observers)
    (supply : audience.registry.nextId.value + 1 < SubscriptionId.count) :
    audience.subscribe observer =
      (.ok audience.registry.nextId,
        ⟨⟨⟨audience.registry.nextId.value + 1⟩,
            .waiting (observers ++ [(audience.registry.nextId, observer)])⟩,
          audience.account ++ [.enrolled audience.registry.nextId observer.name]⟩) := by
  unfold subscribe Registry.subscribe? SubscriptionId.next?
  rw [if_pos supply, waits]
  rfl

/-- An audience as its observers find it when they are called. -/
def announcedWith (audience : Audience) (record : DisconnectRecord) : Announced :=
  ⟨audience.registry.nextId, record, audience.account⟩

/-- The answer of a call during which observers may have failed. -/
def answerOf {α : Type} (failure? : Option String) (value : α) : Except String α :=
  match failure? with
  | none => .ok value
  | some failure => .error failure

/-- After the announcement a new observer is enrolled and called. -/
theorem subscribe_of_announced {record : DisconnectRecord} (observer : ScriptedObserver)
    (announced : audience.registry.phase = .announced record)
    (supply : audience.registry.nextId.value + 1 < SubscriptionId.count) :
    let called := Announced.call (audience.registry.nextId, observer)
      ({ audience.announcedWith record with nextId := ⟨audience.registry.nextId.value + 1⟩ }.note
        (.enrolled audience.registry.nextId observer.name))
    audience.subscribe observer =
      (answerOf called.1 audience.registry.nextId, ofAnnounced called.2) := by
  intro called
  unfold subscribe Registry.subscribe? SubscriptionId.next?
  rw [if_pos supply, announced]
  dsimp only [Option.map_some, Registry.announced?]
  split <;> rename_i later equal
  · rw [show called = (none, later) from equal]
    rfl
  · rw [show called = (some _, later) from equal]
    rfl

theorem announce_of_announced {first : DisconnectRecord} (record : DisconnectRecord)
    (announced : audience.registry.phase = .announced first) :
    audience.announce record = (.ok false, audience) := by
  unfold announce Registry.announce?
  rw [announced]

theorem announce_of_waiting {observers : List (SubscriptionId × ScriptedObserver)}
    (record : DisconnectRecord) (waits : audience.registry.phase = .waiting observers) :
    let called := Registry.callEach Announced.call observers (audience.announcedWith record)
    audience.announce record = (answerOf called.1 true, ofAnnounced called.2) := by
  intro called
  unfold announce Registry.announce?
  rw [waits]
  dsimp only
  split <;> rename_i later equal
  · rw [show called = (none, later) from equal]
    rfl
  · rw [show called = (some _, later) from equal]
    rfl

end Audience

namespace AudienceRun

/-! ## Before the announcement -/

/-- Nobody was told anything; those who remain wait. -/
structure Unannounced (run : AudienceRun) : Prop where
  record : run.record? = none
  account : run.audience.account = (enrolments run.audience.account).map Enrolment.entry
  consecutive : (enrolments run.audience.account).map Prod.fst = idsUpTo run.taken
  removed : ∀ id ∈ run.removed, id.value < run.taken
  waits : ∃ observers, run.audience.registry.phase = .waiting observers ∧
    observers.map (fun observer => (observer.1, observer.2.name)) = run.remaining

theorem unannounced_init : Unannounced {} where
  record := rfl
  account := rfl
  consecutive := rfl
  removed := by intro id member; cases member
  waits := ⟨[], rfl, rfl⟩

namespace Unannounced

variable {run : AudienceRun}

theorem value_lt (quiet : Unannounced run) {enrolment : Enrolment}
    (member : enrolment ∈ enrolments run.audience.account) : enrolment.1.value < run.taken := by
  apply mem_idsUpTo.mp
  rw [← quiet.consecutive]
  exact List.mem_map_of_mem member

theorem of_same (quiet : Unannounced run) {later : AudienceRun} (record : later.record? = none)
    (removed : later.removed = run.removed) (audience : later.audience = run.audience) :
    Unannounced later := by
  have remaining : later.remaining = run.remaining := by
    unfold AudienceRun.remaining
    rw [removed, audience]
  refine ⟨record, ?_, ?_, ?_, ?_⟩
  · rw [audience]
    exact quiet.account
  · rw [taken, audience]
    exact quiet.consecutive
  · rw [removed, taken, audience]
    exact quiet.removed
  · rw [remaining, audience]
    exact quiet.waits

theorem subscribe (quiet : Unannounced run) (observer : ScriptedObserver) :
    Unannounced (run.after (.subscribe observer)) := by
  have record : (run.after (.subscribe observer)).record? = none := by
    rw [record?_after, quiet.record]
    rfl
  have removed : (run.after (.subscribe observer)).removed = run.removed :=
    run.removed_after_of_none (by cases (run.audience.perform (.subscribe observer)).1 <;> rfl)
  obtain ⟨observers, waits, remaining⟩ := quiet.waits
  by_cases supply : run.taken + 1 < SubscriptionId.count
  · have performed := Audience.subscribe_of_waiting observer waits supply
    have audience : (run.after (.subscribe observer)).audience = _ := congrArg Prod.snd performed
    generalize run.after (.subscribe observer) = later at record removed audience
    have enrolled : enrolments later.audience.account =
        enrolments run.audience.account ++ [(run.audience.registry.nextId, observer.name)] := by
      rw [audience]
      exact List.filterMap_append
    have oneMore : later.taken = run.taken + 1 := by
      rw [taken, audience]
      rfl
    have isNew : run.audience.registry.nextId ∉ run.removed := fun member =>
      Nat.lt_irrefl _ (quiet.removed _ member)
    refine ⟨record, ?_, ?_, ?_, ?_⟩
    · rw [enrolled, List.map_append, ← quiet.account, audience]
      rfl
    · rw [enrolled, List.map_append, quiet.consecutive, oneMore, idsUpTo_succ]
      rfl
    · intro id member
      rw [removed] at member
      rw [oneMore]
      exact Nat.lt_succ_of_lt (quiet.removed id member)
    · refine ⟨_, by rw [audience], ?_⟩
      unfold AudienceRun.remaining at remaining ⊢
      rw [List.map_append, remaining, enrolled, removed, List.filter_append]
      simp [isNew]
  · have performed := Audience.subscribe_of_exhausted observer (Nat.le_of_not_lt supply)
    exact quiet.of_same record removed (congrArg Prod.snd performed)

/-- A removal is answered with yes exactly if somebody remains under the id. -/
theorem perform_unsubscribe (quiet : Unannounced run) (id : SubscriptionId) :
    ∃ observers,
      run.audience.perform (.unsubscribe id) =
        (.ok (.unsubscribed (run.remaining.any (·.1 == id))),
          ⟨⟨run.audience.registry.nextId, .waiting observers⟩, run.audience.account⟩) ∧
      observers.map (fun observer => (observer.1, observer.2.name)) =
        run.remaining.filter (·.1 != id) := by
  obtain ⟨observers, waits, remaining⟩ := quiet.waits
  refine ⟨observers.filter (·.1 != id), ?_, ?_⟩
  · rw [← remaining, List.any_map]
    unfold Audience.perform Audience.unsubscribe Registry.unsubscribe
    rw [waits]
    rfl
  · rw [← remaining, List.filter_map]
    rfl

theorem removed_unsubscribe (quiet : Unannounced run) (id : SubscriptionId) :
    (run.after (.unsubscribe id)).removed =
      run.removed ++ if run.remaining.any (·.1 == id) then [id] else [] := by
  obtain ⟨observers, performed, -⟩ := quiet.perform_unsubscribe id
  rw [removed_after, performed]
  cases run.remaining.any (·.1 == id) <;> rfl

/-- The others remain: if nobody remained under the id, nobody is missed. -/
theorem remaining_unsubscribe (quiet : Unannounced run) (id : SubscriptionId) :
    (run.after (.unsubscribe id)).remaining = run.remaining.filter (·.1 != id) := by
  show (enrolments run.audience.account).filter (·.1 ∉ (run.after (.unsubscribe id)).removed) =
    ((enrolments run.audience.account).filter (·.1 ∉ run.removed)).filter (·.1 != id)
  rw [quiet.removed_unsubscribe, List.filter_filter]
  apply List.filter_congr
  intro enrolment member
  by_cases same : enrolment.1 = id
  · by_cases gone : enrolment.1 ∈ run.removed
    · simp [gone]
    · have remains : enrolment ∈ run.remaining := List.mem_filter.mpr ⟨member, decide_eq_true gone⟩
      have found : run.remaining.any (·.1 == id) = true :=
        List.any_eq_true.mpr ⟨enrolment, remains, beq_iff_eq.mpr same⟩
      rw [found]
      simp [same]
  · simp [same]

theorem unsubscribe (quiet : Unannounced run) (id : SubscriptionId) :
    Unannounced (run.after (.unsubscribe id)) := by
  obtain ⟨observers, performed, others⟩ := quiet.perform_unsubscribe id
  have audience : (run.after (.unsubscribe id)).audience = _ := congrArg Prod.snd performed
  have sameIds : (run.after (.unsubscribe id)).taken = run.taken := by
    rw [taken, audience]
    rfl
  constructor
  · rw [record?_after, quiet.record]
    rfl
  · exact quiet.account
  · rw [sameIds]
    exact quiet.consecutive
  · intro other member
    rw [quiet.removed_unsubscribe] at member
    rw [sameIds]
    rcases List.mem_append.mp member with earlier | now
    · exact quiet.removed other earlier
    · obtain ⟨found, member⟩ := List.mem_ite_nil_right.mp now
      obtain rfl : other = id := List.mem_singleton.mp member
      obtain ⟨enrolment, remains, isRemoved⟩ := List.any_eq_true.mp found
      rw [← eq_of_beq isRemoved]
      exact quiet.value_lt (List.mem_filter.mp remains).1
  · refine ⟨observers, by rw [audience], ?_⟩
    rw [others, quiet.remaining_unsubscribe]

end Unannounced

/-! ## After the announcement -/

/-- The run `start` came to the announcement of a record, in which the observers `called` were called,
and the account has gained `entries` since. -/
structure Told (start : AudienceRun) (told : DisconnectRecord) (called : List Enrolment)
    (entries : List ObserverEntry) (run : AudienceRun) : Prop where
  announced : run.audience.registry.phase = .announced told
  record : run.record? = some told
  removed : run.removed = start.removed
  account : run.audience.account = start.audience.account ++ entries
  aftermath : Aftermath told called start.taken run.taken entries
  isPrefix : called <+: start.remaining
  all : run.Delivered → called = start.remaining
  unlessFailed : run.Delivered ∨ run.Failed

theorem not_delivered {run : AudienceRun} (noRecord : run.record? = none) : ¬ run.Delivered := by
  rintro ⟨record, member⟩
  cases List.findSome?_eq_none_iff.mp noRecord _ member

/-- The first announcement. -/
theorem Unannounced.announce {run : AudienceRun} (quiet : Unannounced run)
    (record : DisconnectRecord) :
    ∃ called entries, Told run record called entries (run.after (.announce record)) := by
  obtain ⟨observers, waits, remaining⟩ := quiet.waits
  obtain ⟨called, isPrefix, leads, whole⟩ :=
    Announced.leads_callEach observers (run.audience.announcedWith record)
  obtain ⟨entries, account, aftermath⟩ := leads.adds
  rw [remaining] at isPrefix whole
  have performed := Audience.announce_of_waiting record waits
  have audience : (run.after (.announce record)).audience = _ := congrArg Prod.snd performed
  have answer : (run.audience.perform (.announce record)).1 = _ :=
    congrArg (fun outcome => outcome.1.map ObserverDeed.announced) performed
  refine ⟨called, entries, ?_, ?_, ?_, ?_, ?_, isPrefix, ?_, ?_⟩
  · rw [audience]
    exact congrArg RegistryPhase.announced leads.record
  · rw [record?_after, quiet.record]
    rfl
  · exact run.removed_after_of_none (by cases (run.audience.perform (.announce record)).1 <;> rfl)
  · rw [audience]
    exact account
  · have last : (run.after (.announce record)).taken = _ :=
      congrArg (fun audience => audience.registry.nextId.value) audience
    rw [last]
    exact aftermath
  · intro delivered
    rcases run.delivered_after delivered with earlier | ⟨-, -, effective⟩
    · exact absurd earlier (not_delivered quiet.record)
    · apply whole
      rw [answer] at effective
      dsimp only at effective
      generalize (Registry.callEach _ _ _).1 = failure? at effective ⊢
      cases failure? with
      | none => rfl
      | some failure => cases effective
  · have last : (.announce record, (run.audience.perform (.announce record)).1) ∈
        (run.after (.announce record)).answered :=
      List.mem_append_right _ (List.mem_singleton.mpr rfl)
    rw [answer] at last
    dsimp only at last
    generalize (Registry.callEach _ _ _).1 = failure? at last
    cases failure? with
    | none => exact .inl ⟨record, last⟩
    | some failure => exact .inr ⟨_, last, failure, rfl⟩

namespace Told

variable {start run : AudienceRun} {record : DisconnectRecord} {called : List Enrolment}
  {entries : List ObserverEntry}

/-- A call that only adds an aftermath of its own. -/
theorem extend (told : Told start record called entries run) {call : AudienceCall}
    {more : List ObserverEntry}
    (announced : (run.after call).audience.registry.phase = .announced record)
    (removes : call.removal? (run.audience.perform call).1 = none)
    (ineffective : (run.audience.perform call).1 ≠ .ok (.announced true))
    (account : (run.after call).audience.account = run.audience.account ++ more)
    (aftermath : Aftermath record [] run.taken (run.after call).taken more) :
    Told start record called (entries ++ more) (run.after call) where
  announced := announced
  record := by
    rw [record?_after, told.record]
    rfl
  removed := (run.removed_after_of_none removes).trans told.removed
  account := by rw [account, told.account, List.append_assoc]
  aftermath := by
    have whole := told.aftermath.append aftermath
    rw [List.append_nil] at whole
    exact whole
  isPrefix := told.isPrefix
  all := by
    intro delivered
    rcases run.delivered_after delivered with earlier | ⟨-, -, effective⟩
    · exact told.all earlier
    · exact absurd effective ineffective
  unlessFailed := by
    rcases told.unlessFailed with ⟨record, member⟩ | ⟨entry, member, failed⟩
    · exact .inl ⟨record, List.mem_append_left _ member⟩
    · exact .inr ⟨entry, List.mem_append_left _ member, failed⟩

/-- A call that changes nothing. -/
theorem extend_same (told : Told start record called entries run) {call : AudienceCall}
    (same : (run.audience.perform call).2 = run.audience)
    (removes : call.removal? (run.audience.perform call).1 = none)
    (ineffective : (run.audience.perform call).1 ≠ .ok (.announced true)) :
    Told start record called (entries ++ []) (run.after call) := by
  have audience : (run.after call).audience = run.audience := same
  apply told.extend
  · rw [audience]
    exact told.announced
  · exact removes
  · exact ineffective
  · rw [audience, List.append_nil]
  · rw [taken, taken, audience]
    exact .nothing

theorem announce (told : Told start record called entries run) (other : DisconnectRecord) :
    Told start record called (entries ++ []) (run.after (.announce other)) := by
  have performed := Audience.announce_of_announced other told.announced
  refine told.extend_same (congrArg Prod.snd performed) ?_ ?_
  · cases (run.audience.perform (.announce other)).1 <;> rfl
  · show (run.audience.announce other).1.map ObserverDeed.announced ≠ _
    rw [performed]
    simp [Except.map]

theorem unsubscribe (told : Told start record called entries run) (id : SubscriptionId) :
    Told start record called (entries ++ []) (run.after (.unsubscribe id)) := by
  have performed : run.audience.unsubscribe id = (false, run.audience) := by
    unfold Audience.unsubscribe Registry.unsubscribe
    rw [told.announced]
  refine told.extend_same (congrArg Prod.snd performed) ?_ ?_
  · show AudienceCall.removal? _ (.ok (.unsubscribed (run.audience.unsubscribe id).1)) = none
    rw [performed]
    rfl
  · simp [Audience.perform]

theorem subscribe (told : Told start record called entries run) (observer : ScriptedObserver) :
    ∃ more, Told start record called (entries ++ more) (run.after (.subscribe observer)) := by
  have answer : (run.audience.perform (.subscribe observer)).1 ≠ .ok (.announced true) := by
    show (run.audience.subscribe observer).1.map ObserverDeed.subscribed ≠ _
    cases (run.audience.subscribe observer).1 <;> simp [Except.map]
  have removes : AudienceCall.removal? (.subscribe observer)
      (run.audience.perform (.subscribe observer)).1 = none := by
    cases (run.audience.perform (.subscribe observer)).1 <;> rfl
  by_cases supply : run.taken + 1 < SubscriptionId.count
  · have performed := Audience.subscribe_of_announced observer told.announced supply
    have audience : (run.after (.subscribe observer)).audience = _ := congrArg Prod.snd performed
    have last : (run.after (.subscribe observer)).taken = _ :=
      congrArg (fun audience => audience.registry.nextId.value) audience
    have leads := Announced.leads_subscribe observer (run.audience.announcedWith record)
    obtain ⟨more, account, aftermath⟩ := leads.adds
    refine ⟨more, told.extend ?_ removes answer ?_ ?_⟩
    · rw [audience]
      exact congrArg RegistryPhase.announced leads.record
    · rw [audience]
      exact account
    · rw [last]
      exact aftermath
  · have performed := Audience.subscribe_of_exhausted observer (Nat.le_of_not_lt supply)
    exact ⟨[], told.extend_same (congrArg Prod.snd performed) removes answer⟩

theorem after (told : Told start record called entries run) (call : AudienceCall) :
    ∃ more, Told start record called (entries ++ more) (run.after call) := by
  cases call with
  | announce other => exact ⟨[], told.announce other⟩
  | unsubscribe id => exact ⟨[], told.unsubscribe id⟩
  | subscribe observer => exact told.subscribe observer

theorem play (told : Told start record called entries run) (calls : List AudienceCall) :
    ∃ more, Told start record called (entries ++ more) (run.play calls) := by
  induction calls generalizing run entries with
  | nil => exact ⟨[], by rw [List.append_nil]; exact told⟩
  | cons call rest inductionHypothesis =>
      obtain ⟨more, later⟩ := told.after call
      obtain ⟨further, last⟩ := inductionHypothesis later
      exact ⟨more ++ further, by rw [← List.append_assoc]; exact last⟩

end Told

/-- No record is announced yet, or the run came through the announcement of one. -/
def InPhase (run : AudienceRun) : Prop :=
  Unannounced run ∨ ∃ start record called entries,
    Unannounced start ∧ Told start record called entries run

theorem InPhase.after {run : AudienceRun} (inPhase : InPhase run) (call : AudienceCall) :
    InPhase (run.after call) := by
  rcases inPhase with quiet | ⟨start, record, called, entries, quiet, told⟩
  · cases call with
    | subscribe observer => exact .inl (quiet.subscribe observer)
    | unsubscribe id => exact .inl (quiet.unsubscribe id)
    | announce record =>
        obtain ⟨called, entries, told⟩ := quiet.announce record
        exact .inr ⟨run, record, called, entries, quiet, told⟩
  · obtain ⟨more, later⟩ := told.after call
    exact .inr ⟨start, record, called, entries ++ more, quiet, later⟩

theorem inPhase_play (calls : List AudienceCall) : InPhase (play {} calls) := by
  have onward (run : AudienceRun) (inPhase : InPhase run) : InPhase (run.play calls) := by
    induction calls generalizing run with
    | nil => exact inPhase
    | cons call rest inductionHypothesis => exact inductionHypothesis _ (inPhase.after call)
  exact onward {} (.inl unannounced_init)

end AudienceRun

end PeerLink
