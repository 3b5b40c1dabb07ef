import PeerLink.Observer.Script
import PeerLink.Proofs.Observer.Registry

/-!
Contract: what observers can add to the account once a record is announced.

Whatever their scripts do, to any depth, the account grows by the sentences of one small grammar,
`Aftermath`: a waiting observer is told the record, an observer that subscribes now is told it at
once, and no other instruction has an effect. What is promised of the observers is read off the
grammar, by induction on it, and never off the scripts.

Owns: the grammar, that scripts and deliveries keep to it, and what follows from it.

Does not own: what happens before the announcement.
-/

namespace PeerLink

/-! ## Views of an account -/

/-- An observer, by its id and its name. -/
abbrev Enrolment : Type := SubscriptionId × String

namespace ObserverEntry

def enrolment? : ObserverEntry → Option Enrolment
  | enrolled id observer => some (id, observer)
  | notified .. | did .. => none

def notice? : ObserverEntry → Option Enrolment
  | notified id observer _ => some (id, observer)
  | enrolled .. | did .. => none

end ObserverEntry

def Enrolment.entry (enrolment : Enrolment) : ObserverEntry := .enrolled enrolment.1 enrolment.2

/-- The observers that took an id, in order. -/
def enrolments (account : List ObserverEntry) : List Enrolment :=
  account.filterMap ObserverEntry.enrolment?

/-- The observers that were told a record, in order. -/
def notices (account : List ObserverEntry) : List Enrolment :=
  account.filterMap ObserverEntry.notice?

/-- The first ids, in order. -/
def idsUpTo (count : Nat) : List SubscriptionId := (List.range count).map SubscriptionId.mk

theorem idsUpTo_succ (count : Nat) : idsUpTo (count + 1) = idsUpTo count ++ [⟨count⟩] := by
  unfold idsUpTo
  rw [List.range_succ, List.map_append, List.map_singleton]

theorem mem_idsUpTo {count : Nat} {id : SubscriptionId} : id ∈ idsUpTo count ↔ id.value < count := by
  unfold idsUpTo
  rw [List.mem_map]
  constructor
  · rintro ⟨value, below, rfl⟩
    exact List.mem_range.mp below
  · intro below
    exact ⟨id.value, List.mem_range.mpr below, rfl⟩

theorem nodup_idsUpTo (count : Nat) : (idsUpTo count).Nodup := by
  unfold idsUpTo
  apply List.Pairwise.map SubscriptionId.mk _ List.nodup_range
  intro left right differ same
  exact differ (congrArg SubscriptionId.value same)

/-! ## The grammar -/

/-- What an instruction can answer when a record is announced already and the ids below `next` are
taken: nothing is removed and nothing is announced. -/
def ObserverDeed.IsIdle (next : Nat) : ObserverDeed → Prop
  | .subscribed id => id.value < next
  | .unsubscribed found => found = false
  | .announced effective => effective = false
  | .looked => True

/-- The entries that follow the announcement of a record. The waiting observers `called` are told it
in this order; the ids from `next` to below `last` are taken meanwhile, and each observer that takes
one is told the record right then. -/
inductive Aftermath (record : DisconnectRecord) :
    (called : List Enrolment) → (next last : Nat) → List ObserverEntry → Prop where
  | nothing {next : Nat} : Aftermath record [] next next []
  | waited {called : List Enrolment} {next last : Nat} {entries : List ObserverEntry}
      (id : SubscriptionId) (observer : String) (rest : Aftermath record called next last entries) :
      Aftermath record ((id, observer) :: called) next last
        (.notified id observer record :: entries)
  | late {called : List Enrolment} {next last : Nat} {entries : List ObserverEntry}
      (observer : String) (rest : Aftermath record called (next + 1) last entries) :
      Aftermath record called next last
        (.enrolled ⟨next⟩ observer :: .notified ⟨next⟩ observer record :: entries)
  | did {called : List Enrolment} {next last : Nat} {entries : List ObserverEntry}
      (observer : String) (deed : ObserverDeed) (idle : deed.IsIdle next)
      (rest : Aftermath record called next last entries) :
      Aftermath record called next last (.did observer deed :: entries)

namespace Aftermath

variable {record : DisconnectRecord} {called : List Enrolment} {next last : Nat}
  {entries : List ObserverEntry}

theorem append {moreCalled : List Enrolment} {furthest : Nat} {more : List ObserverEntry}
    (earlier : Aftermath record called next last entries)
    (later : Aftermath record moreCalled last furthest more) :
    Aftermath record (called ++ moreCalled) next furthest (entries ++ more) := by
  induction earlier with
  | nothing => exact later
  | waited id observer _ inductionHypothesis =>
      exact .waited id observer (inductionHypothesis later)
  | late observer _ inductionHypothesis => exact .late observer (inductionHypothesis later)
  | did observer deed idle _ inductionHypothesis =>
      exact .did observer deed idle (inductionHypothesis later)

theorem le (aftermath : Aftermath record called next last entries) : next ≤ last := by
  induction aftermath with
  | nothing => exact Nat.le_refl _
  | waited _ _ _ inductionHypothesis => exact inductionHypothesis
  | late _ _ inductionHypothesis => omega
  | did _ _ _ _ inductionHypothesis => exact inductionHypothesis

/-- Ids are taken one after the other. -/
theorem consecutive (aftermath : Aftermath record called next last entries) :
    idsUpTo next ++ (enrolments entries).map Prod.fst = idsUpTo last := by
  induction aftermath with
  | nothing => exact List.append_nil _
  | waited _ _ _ inductionHypothesis => exact inductionHypothesis
  | did _ _ _ _ inductionHypothesis => exact inductionHypothesis
  | @late _ next _ _ _ _ inductionHypothesis =>
      rw [idsUpTo_succ, List.append_assoc] at inductionHypothesis
      exact inductionHypothesis

/-- Those who are told are the waiting observers that were called and those that enrol meanwhile. -/
theorem told_perm (aftermath : Aftermath record called next last entries) :
    (notices entries).Perm (called ++ enrolments entries) := by
  induction aftermath with
  | nothing => exact List.Perm.refl _
  | waited id observer _ inductionHypothesis => exact inductionHypothesis.cons (id, observer)
  | did _ _ _ _ inductionHypothesis => exact inductionHypothesis
  | @late _ next _ _ observer _ inductionHypothesis =>
      exact (inductionHypothesis.cons (⟨next⟩, observer)).trans List.perm_middle.symm

/-- Of the observers enrolled before, those called are told, and in the order of the calls. -/
theorem told_in_order {bound : Nat} (aftermath : Aftermath record called next last entries)
    (earlier : ∀ enrolment ∈ called, enrolment.1.value < bound) (reached : bound ≤ next) :
    (notices entries).filter (fun notice => notice.1.value < bound) = called := by
  induction aftermath with
  | nothing => rfl
  | waited id observer _ inductionHypothesis =>
      have below : id.value < bound := earlier (id, observer) (by simp)
      have others := inductionHypothesis
        (fun enrolment member => earlier enrolment (List.mem_cons_of_mem _ member)) reached
      show ((id, observer) :: notices _).filter _ = _
      rw [List.filter_cons_of_pos (by simpa using below), others]
  | did _ _ _ _ inductionHypothesis => exact inductionHypothesis earlier reached
  | @late _ next _ _ observer _ inductionHypothesis =>
      have beyond : ¬ next < bound := Nat.not_lt.mpr reached
      refine (List.filter_cons_of_neg (by simpa using reached)).trans ?_
      exact inductionHypothesis earlier (Nat.le_succ_of_le reached)

/-- Everyone is told the announced record. -/
theorem record_of_mem (aftermath : Aftermath record called next last entries)
    {id : SubscriptionId} {observer : String} {told : DisconnectRecord}
    (member : .notified id observer told ∈ entries) : told = record := by
  induction aftermath with
  | nothing => cases member
  | waited _ _ _ inductionHypothesis =>
      rcases List.mem_cons.mp member with same | further
      · cases same
        rfl
      · exact inductionHypothesis further
  | late _ _ inductionHypothesis =>
      rcases List.mem_cons.mp member with same | further
      · cases same
      · rcases List.mem_cons.mp further with same | further
        · cases same
          rfl
        · exact inductionHypothesis further
  | did _ _ _ _ inductionHypothesis =>
      rcases List.mem_cons.mp member with same | further
      · cases same
      · exact inductionHypothesis further

/-- An observer that enrols is told before anything else happens. -/
theorem told_at_once (aftermath : Aftermath record called next last entries)
    {before after : List ObserverEntry} {id : SubscriptionId} {observer : String}
    (split : entries = before ++ .enrolled id observer :: after) :
    ∃ rest, after = .notified id observer record :: rest := by
  induction aftermath generalizing before with
  | nothing => simp at split
  | waited _ _ _ inductionHypothesis =>
      cases before with
      | nil => cases split
      | cons _ before => exact inductionHypothesis (List.cons.inj split).2
  | late _ _ inductionHypothesis =>
      rcases before with - | ⟨_, - | ⟨_, before⟩⟩
      · cases split
        exact ⟨_, rfl⟩
      · cases split
      · exact inductionHypothesis (List.cons.inj (List.cons.inj split).2).2
  | did _ _ _ _ inductionHypothesis =>
      cases before with
      | nil => cases split
      | cons _ before => exact inductionHypothesis (List.cons.inj split).2

end Aftermath

theorem ObserverDeed.IsIdle.mono {deed : ObserverDeed} {next last : Nat} (idle : deed.IsIdle next)
    (reached : next ≤ last) : deed.IsIdle last := by
  cases deed with
  | subscribed id => exact Nat.lt_of_lt_of_le idle reached
  | unsubscribed | announced | looked => exact idle

/-- No instruction of an observer has an effect. -/
theorem Aftermath.idle_of_mem {record : DisconnectRecord} {called : List Enrolment} {next last : Nat}
    {entries : List ObserverEntry} (aftermath : Aftermath record called next last entries)
    {observer : String} {deed : ObserverDeed} (member : .did observer deed ∈ entries) :
    deed.IsIdle last := by
  induction aftermath with
  | nothing => cases member
  | waited _ _ _ inductionHypothesis =>
      rcases List.mem_cons.mp member with same | further
      · cases same
      · exact inductionHypothesis further
  | late _ _ inductionHypothesis =>
      rcases List.mem_cons.mp member with same | further
      · cases same
      · rcases List.mem_cons.mp further with same | further
        · cases same
        · exact inductionHypothesis further
  | did _ _ idle rest inductionHypothesis =>
      rcases List.mem_cons.mp member with same | further
      · cases same
        exact idle.mono rest.le
      · exact inductionHypothesis further

/-! ## Scripts keep to the grammar -/

namespace Announced

/-- From one state to another the account gains an aftermath of the announced record. -/
structure Leads (called : List Enrolment) (state later : Announced) : Prop where
  record : later.record = state.record
  adds : ∃ entries, later.account = state.account ++ entries ∧
    Aftermath state.record called state.nextId.value later.nextId.value entries

namespace Leads

variable {called moreCalled : List Enrolment} {state later last : Announced}

theorem refl (state : Announced) : Leads [] state state :=
  ⟨rfl, [], (List.append_nil _).symm, .nothing⟩

theorem trans (first : Leads called state later) (second : Leads moreCalled later last) :
    Leads (called ++ moreCalled) state last := by
  obtain ⟨entries, account, aftermath⟩ := first.adds
  obtain ⟨more, laterAccount, laterAftermath⟩ := second.adds
  rw [first.record] at laterAftermath
  refine ⟨second.record.trans first.record, entries ++ more, ?_, aftermath.append laterAftermath⟩
  rw [laterAccount, account, List.append_assoc]

theorem did (observer : String) (deed : ObserverDeed) (idle : deed.IsIdle state.nextId.value) :
    Leads [] state (state.note (.did observer deed)) :=
  ⟨rfl, _, rfl, .did observer deed idle .nothing⟩

theorem waited (id : SubscriptionId) (observer : String) :
    Leads [(id, observer)] state (state.note (.notified id observer state.record)) :=
  ⟨rfl, _, rfl, .waited id observer .nothing⟩

end Leads

theorem subscribe?_eq {state : Announced} {observer : ScriptedObserver} {id : SubscriptionId}
    {registry : Registry ScriptedObserver}
    (subscribed : state.registry.subscribe? observer = some (id, registry)) :
    id = state.nextId ∧ registry.nextId.value = state.nextId.value + 1 ∧
      registry.phase = .announced state.record := by
  unfold Registry.subscribe? at subscribed
  obtain ⟨nextId, following, entry⟩ := Option.map_eq_some_iff.mp subscribed
  unfold SubscriptionId.next? at following
  split at following
  · cases following
    cases entry
    exact ⟨rfl, rfl, rfl⟩
  · cases following

/-- Enrolling an observer now, and telling it. -/
theorem leads_late {state : Announced} {id : SubscriptionId} {next : SubscriptionId}
    (observer : String) (isNext : id = state.nextId) (following : next.value = id.value + 1) :
    Leads [] state (({ state with nextId := next }.note (.enrolled id observer)).note
      (.notified id observer state.record)) := by
  subst isNext
  refine ⟨rfl, _, List.append_assoc .., ?_⟩
  show Aftermath state.record [] state.nextId.value next.value _
  rw [following]
  exact .late observer .nothing

/-- Whatever a script does, nobody who waits is told, and nothing but late enrolments comes of it. -/
theorem leads_run (name : String) (script : ObserverScript) (state : Announced) :
    Leads [] state (script.run name state).2 := by
  induction script generalizing name state with
  | done | fail => exact Leads.refl state
  | look rest inductionHypothesis =>
      exact (Leads.did name .looked trivial).trans (inductionHypothesis name _)
  | announce record rest inductionHypothesis =>
      exact (Leads.did name (.announced false) rfl).trans (inductionHypothesis name _)
  | unsubscribe id rest inductionHypothesis =>
      exact (Leads.did name (.unsubscribed false) rfl).trans (inductionHypothesis name _)
  | subscribe inner script rest inside outside =>
      unfold ObserverScript.run
      split
      · exact Leads.refl state
      · rename_i id registry subscribed
        obtain ⟨isNext, following, -⟩ := subscribe?_eq subscribed
        have enrolled := leads_late inner isNext (following.trans (by rw [isNext]))
        have called := enrolled.trans (inside inner _)
        dsimp only
        split
        · rename_i failed ran
          rw [ran] at called
          exact called
        · rename_i later ran
          rw [ran] at called
          have taken : id.value < later.nextId.value := by
            obtain ⟨entries, -, aftermath⟩ := (inside inner _).adds
            have reached := aftermath.le
            rw [ran] at reached
            change registry.nextId.value ≤ later.nextId.value at reached
            rw [isNext]
            omega
          exact called.trans ((Leads.did name (.subscribed id) taken).trans (outside name _))

/-- A waiting observer that is called is told the record, and then its script runs. -/
theorem leads_call (subscribed : SubscriptionId × ScriptedObserver) (state : Announced) :
    Leads [(subscribed.1, subscribed.2.name)] state (call subscribed state).2 :=
  (Leads.waited subscribed.1 subscribed.2.name).trans (leads_run _ _ _)

/-- An observer that subscribes now takes the next id, is told the record, and then its script runs. -/
theorem leads_subscribe (observer : ScriptedObserver) (state : Announced) :
    Leads [] state (call (state.nextId, observer)
      ({ state with nextId := ⟨state.nextId.value + 1⟩ }.note
        (.enrolled state.nextId observer.name))).2 :=
  (leads_late observer.name rfl rfl).trans (leads_run _ _ _)

/-- A delivery calls the waiting observers in order, all of them unless one fails. -/
theorem leads_callEach (observers : List (SubscriptionId × ScriptedObserver)) (state : Announced) :
    ∃ called, called <+: observers.map (fun observer => (observer.1, observer.2.name)) ∧
      Leads called state (Registry.callEach call observers state).2 ∧
      ((Registry.callEach call observers state).1 = none →
        called = observers.map fun observer => (observer.1, observer.2.name)) := by
  induction observers generalizing state with
  | nil => exact ⟨[], List.prefix_refl _, Leads.refl state, fun _ => rfl⟩
  | cons first rest inductionHypothesis =>
      have told := leads_call first state
      unfold Registry.callEach
      split
      · rename_i later ran
        rw [ran] at told
        obtain ⟨called, isPrefix, leads, whole⟩ := inductionHypothesis later
        refine ⟨(first.1, first.2.name) :: called, ?_, told.trans leads, ?_⟩
        · exact List.cons_prefix_cons.mpr ⟨rfl, isPrefix⟩
        · intro unharmed
          rw [whole unharmed, List.map_cons]
      · rename_i failure later ran
        rw [ran] at told
        refine ⟨[(first.1, first.2.name)], ?_, told, ?_⟩
        · exact List.cons_prefix_cons.mpr ⟨rfl, List.nil_prefix⟩
        · intro unharmed
          cases unharmed

end Announced

end PeerLink
