import PeerLink.Proofs.Observer.Audience

/-!
Contract: the chronicle of a run, in which every request to remove an observer has its place.

The account of an audience says what observers saw and did, but not whom they asked to be removed, and
nothing of requests from outside. The chronicle says both, moment by moment, and otherwise what the
account says.

Owns: moments, the chronicle of calls, and its agreement with the account and with the answers.

Does not own: what follows from the order of the moments.
-/

namespace PeerLink

/-- A moment of a run: an entry of the account, or a request to remove an observer and its answer. A
request from inside an observer carries the name of that observer. -/
inductive Moment where
  | noted (entry : ObserverEntry)
  | removal (requester : Option String) (id : SubscriptionId) (found : Bool)
deriving DecidableEq, Repr

namespace Moment

/-- What the account says of a moment. -/
def entry? : Moment → Option ObserverEntry
  | noted entry => some entry
  | removal (some requester) _ found => some (.did requester (.unsubscribed found))
  | removal none _ _ => none

/-- The id that was removed, if the answer was yes. -/
def removed? : Moment → Option SubscriptionId
  | removal _ id true => some id
  | removal _ _ false | noted _ => none

/-- Whether a moment can come about inside an observer: a request made there is answered with no. -/
def IsNested : Moment → Prop
  | noted _ => True
  | removal requester _ found => requester.isSome ∧ found = false

end Moment

/-- What the account says of a chronicle. -/
def entries (moments : List Moment) : List ObserverEntry := moments.filterMap Moment.entry?

/-- The ids whose removal was answered with yes, according to a chronicle. -/
def removals (moments : List Moment) : List SubscriptionId := moments.filterMap Moment.removed?

/-- The ids whose observers were called, according to a chronicle. -/
def toldIn (moments : List Moment) : List SubscriptionId :=
  (notices (entries moments)).map Prod.fst

section Append

variable (moments more : List Moment)

@[simp] theorem entries_append : entries (moments ++ more) = entries moments ++ entries more :=
  List.filterMap_append

@[simp] theorem removals_append : removals (moments ++ more) = removals moments ++ removals more :=
  List.filterMap_append

@[simp] theorem toldIn_append : toldIn (moments ++ more) = toldIn moments ++ toldIn more := by
  unfold toldIn notices
  rw [entries_append, List.filterMap_append, List.map_append]

end Append

theorem removals_of_nested {moments : List Moment} (nested : ∀ moment ∈ moments, moment.IsNested) :
    removals moments = [] := by
  apply List.filterMap_eq_nil_iff.mpr
  intro moment member
  have inside := nested moment member
  cases moment with
  | noted => rfl
  | removal requester id found =>
      rw [inside.2]
      rfl

/-! ## Inside observers -/

/-- The moments of the run of a script for the observer called `name`. -/
def ObserverScript.moments (name : String) : ObserverScript → Announced → List Moment
  | .done, _ | .fail _, _ => []
  | .look rest, state =>
      .noted (.did name .looked) :: rest.moments name (state.note (.did name .looked))
  | .announce record rest, state =>
      let effective := (state.registry.announce? record).isSome
      .noted (.did name (.announced effective)) ::
        rest.moments name (state.note (.did name (.announced effective)))
  | .unsubscribe id rest, state =>
      let found := (state.registry.unsubscribe id).1
      .removal (some name) id found ::
        rest.moments name (state.note (.did name (.unsubscribed found)))
  | .subscribe inner script rest, state =>
      match state.registry.subscribe? ⟨inner, script⟩ with
      | none => []
      | some (id, registry) =>
          let enrolled := { state with nextId := registry.nextId }.note (.enrolled id inner)
          let told := enrolled.note (.notified id inner state.record)
          .noted (.enrolled id inner) :: .noted (.notified id inner state.record) ::
            (script.moments inner told ++
              match script.run inner told with
              | (some _, _) => []
              | (none, called) => .noted (.did name (.subscribed id)) ::
                  rest.moments name (called.note (.did name (.subscribed id))))

namespace Announced

/-- The moments in which a subscribed observer is called. -/
def momentsOfCall (subscribed : SubscriptionId × ScriptedObserver) (state : Announced) :
    List Moment :=
  .noted (.notified subscribed.1 subscribed.2.name state.record) ::
    subscribed.2.script.moments subscribed.2.name
      (state.note (.notified subscribed.1 subscribed.2.name state.record))

/-- The moments in which observers are called one after the other, until one fails. -/
def momentsOfCalls : List (SubscriptionId × ScriptedObserver) → Announced → List Moment
  | [], _ => []
  | first :: rest, state =>
      state.momentsOfCall first ++
        match call first state with
        | (none, called) => momentsOfCalls rest called
        | (some _, _) => []

/-- From one state to another the account gains what it says of these moments, all of which come about
inside observers. -/
structure Tells (moments : List Moment) (state later : Announced) : Prop where
  account : later.account = state.account ++ entries moments
  nested : ∀ moment ∈ moments, moment.IsNested

namespace Tells

variable {moments more : List Moment} {state later last : Announced}

theorem refl (state : Announced) : Tells [] state state :=
  ⟨(List.append_nil _).symm, fun _ member => absurd member List.not_mem_nil⟩

theorem trans (first : Tells moments state later) (second : Tells more later last) :
    Tells (moments ++ more) state last where
  account := by
    rw [second.account, first.account, List.append_assoc, entries_append]
  nested := by
    intro moment member
    rcases List.mem_append.mp member with earlier | further
    · exact first.nested moment earlier
    · exact second.nested moment further

/-- One entry is noted, and then more happens. -/
theorem cons (moment : Moment) {entry : ObserverEntry} (isEntry : moment.entry? = some entry)
    (nested : moment.IsNested) (rest : Tells more (state.note entry) later) :
    Tells (moment :: more) state later where
  account := by
    rw [rest.account, entries, entries, List.filterMap_cons_some isEntry]
    exact List.append_assoc ..
  nested := by
    intro other member
    rcases List.mem_cons.mp member with rfl | further
    · exact nested
    · exact rest.nested other further

end Tells

theorem tells_run (name : String) (script : ObserverScript) (state : Announced) :
    Tells (script.moments name state) state (script.run name state).2 := by
  induction script generalizing name state with
  | done | fail => exact Tells.refl state
  | look rest inductionHypothesis =>
      exact Tells.cons (.noted _) rfl trivial (inductionHypothesis name _)
  | announce record rest inductionHypothesis =>
      exact Tells.cons (.noted _) rfl trivial (inductionHypothesis name _)
  | unsubscribe id rest inductionHypothesis =>
      exact Tells.cons (.removal _ _ _) rfl ⟨rfl, rfl⟩ (inductionHypothesis name _)
  | subscribe inner script rest inside outside =>
      unfold ObserverScript.run ObserverScript.moments
      cases state.registry.subscribe? ⟨inner, script⟩ with
      | none => exact Tells.refl state
      | some subscribed =>
          obtain ⟨id, registry⟩ := subscribed
          dsimp only
          -- Whatever comes next, the new observer was enrolled and told first.
          have told {moments : List Moment} {last : Announced}
              (rest : Tells moments (({ state with nextId := registry.nextId }.note
                (.enrolled id inner)).note (.notified id inner state.record)) last) :
              Tells (.noted (.enrolled id inner) :: .noted (.notified id inner state.record) ::
                moments) state last := by
            have enrolled := Tells.cons (.noted _) rfl trivial
              (Tells.cons (.noted _) rfl trivial rest)
            exact ⟨enrolled.account, enrolled.nested⟩
          have called := inside inner (({ state with nextId := registry.nextId }.note
            (.enrolled id inner)).note (.notified id inner state.record))
          apply told
          generalize script.run inner _ = outcome at called ⊢
          obtain ⟨_ | failure, later⟩ := outcome
          · exact called.trans (Tells.cons (.noted _) rfl trivial (outside name _))
          · exact called.trans (Tells.refl later)

theorem tells_call (subscribed : SubscriptionId × ScriptedObserver) (state : Announced) :
    Tells (state.momentsOfCall subscribed) state (call subscribed state).2 :=
  Tells.cons (.noted _) rfl trivial (tells_run _ _ _)

theorem tells_callEach (observers : List (SubscriptionId × ScriptedObserver)) (state : Announced) :
    Tells (momentsOfCalls observers state) state (Registry.callEach call observers state).2 := by
  induction observers generalizing state with
  | nil => exact Tells.refl state
  | cons first rest inductionHypothesis =>
      have called := tells_call first state
      unfold Registry.callEach momentsOfCalls
      generalize call first state = outcome at called ⊢
      obtain ⟨_ | failure, later⟩ := outcome
      · exact called.trans (inductionHypothesis later)
      · exact called.trans (Tells.refl later)

end Announced

/-! ## Calls -/

namespace Audience

/-- The moments of a subscription. -/
def momentsOfSubscribe (audience : Audience) (observer : ScriptedObserver) : List Moment :=
  match audience.registry.subscribe? observer with
  | none => []
  | some (id, registry) =>
      .noted (.enrolled id observer.name) ::
        match registry.announced? with
        | none => []
        | some record => Announced.momentsOfCall (id, observer)
            ⟨registry.nextId, record, audience.account ++ [.enrolled id observer.name]⟩

/-- The moments of an announcement. -/
def momentsOfAnnounce (audience : Audience) (record : DisconnectRecord) : List Moment :=
  match audience.registry.announce? record with
  | none => []
  | some (observers, registry) =>
      Announced.momentsOfCalls observers ⟨registry.nextId, record, audience.account⟩

/-- The moments of a call. A request from outside has no requester. -/
def moments (audience : Audience) : AudienceCall → List Moment
  | .subscribe observer => audience.momentsOfSubscribe observer
  | .unsubscribe id => [.removal none id (audience.unsubscribe id).1]
  | .announce record => audience.momentsOfAnnounce record

/-- The moments of calls that are made one after the other. -/
def chronicle : Audience → List AudienceCall → List Moment
  | _, [] => []
  | audience, call :: calls => audience.moments call ++ (audience.perform call).2.chronicle calls

variable {audience : Audience}

/-- A call adds to the account what it says of its moments. -/
theorem account_perform (audience : Audience) (call : AudienceCall) :
    (audience.perform call).2.account = audience.account ++ entries (audience.moments call) := by
  cases call with
  | unsubscribe id => exact (List.append_nil _).symm
  | subscribe observer =>
      show (audience.subscribe observer).2.account =
        audience.account ++ entries (audience.momentsOfSubscribe observer)
      unfold subscribe momentsOfSubscribe
      cases audience.registry.subscribe? observer with
      | none => exact (List.append_nil _).symm
      | some subscribed =>
          obtain ⟨id, registry⟩ := subscribed
          dsimp only
          cases registry.announced? with
          | none => rfl
          | some record =>
              have told := (Announced.tells_call (id, observer) ⟨registry.nextId, record,
                audience.account ++ [.enrolled id observer.name]⟩).account
              rw [List.append_assoc] at told
              change _ = _ ++ entries (.noted (.enrolled id observer.name) :: _) at told
              dsimp only [note]
              generalize Announced.call _ _ = outcome at told ⊢
              obtain ⟨_ | failure, later⟩ := outcome <;> exact told
  | announce record =>
      show (audience.announce record).2.account =
        audience.account ++ entries (audience.momentsOfAnnounce record)
      unfold announce momentsOfAnnounce
      cases audience.registry.announce? record with
      | none => exact (List.append_nil _).symm
      | some announced =>
          obtain ⟨observers, registry⟩ := announced
          have told := (Announced.tells_callEach observers
            ⟨registry.nextId, record, audience.account⟩).account
          dsimp only
          generalize Registry.callEach _ _ _ = outcome at told ⊢
          obtain ⟨_ | failure, later⟩ := outcome <;> exact told

/-- All moments of a call come about inside observers, unless the call itself asks for a removal. -/
theorem nested_of_mem_moments {call : AudienceCall} {moment : Moment}
    (member : moment ∈ audience.moments call) :
    moment.IsNested ∨ ∃ id, call = .unsubscribe id ∧
      moment = .removal none id (audience.unsubscribe id).1 := by
  cases call with
  | unsubscribe id => exact .inr ⟨id, rfl, List.mem_singleton.mp member⟩
  | subscribe observer =>
      refine .inl ?_
      change moment ∈ audience.momentsOfSubscribe observer at member
      unfold momentsOfSubscribe at member
      split at member
      · cases member
      · rcases List.mem_cons.mp member with rfl | member
        · trivial
        · split at member
          · cases member
          · exact (Announced.tells_call _ _).nested moment member
  | announce record =>
      refine .inl ?_
      change moment ∈ audience.momentsOfAnnounce record at member
      unfold momentsOfAnnounce at member
      split at member
      · cases member
      · exact (Announced.tells_callEach _ _).nested moment member

end Audience

namespace AudienceRun

/-- A call adds to the removals those of its moments. -/
theorem removed_after_moments (run : AudienceRun) (call : AudienceCall) :
    (run.after call).removed = run.removed ++ removals (run.audience.moments call) := by
  rw [removed_after]
  congr 1
  by_cases asks : ∃ id, call = .unsubscribe id
  · obtain ⟨id, rfl⟩ := asks
    show (AudienceCall.removal? (.unsubscribe id)
      (.ok (.unsubscribed (run.audience.unsubscribe id).1))).toList =
        removals [.removal none id (run.audience.unsubscribe id).1]
    cases (run.audience.unsubscribe id).1 <;> rfl
  · rw [removals_of_nested]
    · cases call with
      | unsubscribe id => exact absurd ⟨id, rfl⟩ asks
      | subscribe | announce => rfl
    · intro moment member
      rcases Audience.nested_of_mem_moments member with nested | ⟨id, isRemoval, -⟩
      · exact nested
      · exact absurd ⟨id, isRemoval⟩ asks

/-- The account of calls, and the removals in them, are what their chronicle says. -/
theorem chronicled (run : AudienceRun) (calls : List AudienceCall) :
    (run.play calls).audience.account =
        run.audience.account ++ entries (run.audience.chronicle calls) ∧
      (run.play calls).removed = run.removed ++ removals (run.audience.chronicle calls) := by
  induction calls generalizing run with
  | nil => exact ⟨(List.append_nil _).symm, (List.append_nil _).symm⟩
  | cons call calls inductionHypothesis =>
      obtain ⟨account, removed⟩ := inductionHypothesis (run.after call)
      rw [show (run.after call).audience.account = _ from run.audience.account_perform call,
        List.append_assoc, ← entries_append] at account
      rw [run.removed_after_moments call, List.append_assoc, ← removals_append] at removed
      exact ⟨account, removed⟩

/-- A moment of a run belongs to one of its calls. -/
theorem call_of_chronicle (run : AudienceRun) {calls : List AudienceCall}
    {before after : List Moment} {moment : Moment}
    (split : run.audience.chronicle calls = before ++ moment :: after) :
    ∃ earlier call later start ending, calls = earlier ++ call :: later ∧
      (run.play earlier).audience.moments call = start ++ moment :: ending ∧
      before = run.audience.chronicle earlier ++ start ∧
      after = ending ++ ((run.play earlier).after call).audience.chronicle later := by
  induction calls generalizing run before with
  | nil => cases List.append_ne_nil_of_right_ne_nil before (List.cons_ne_nil _ _) split.symm
  | cons call calls inductionHypothesis =>
      rcases List.append_eq_append_iff.mp split with ⟨rest, rfl, further⟩ | ⟨rest, now, others⟩
      · -- The moment comes after those of the first call.
        obtain ⟨earlier, other, later, start, ending, rfl, moments, rfl, rfl⟩ :=
          inductionHypothesis (run.after call) further
        exact ⟨call :: earlier, other, later, start, ending, rfl, moments,
          (List.append_assoc ..).symm, rfl⟩
      · cases rest with
        | nil =>
            rw [List.append_nil] at now
            have further : (run.after call).audience.chronicle calls = [] ++ moment :: after :=
              others.symm
            obtain ⟨earlier, other, later, start, ending, rfl, moments, isStart, rfl⟩ :=
              inductionHypothesis (run.after call) further
            refine ⟨call :: earlier, other, later, start, ending, rfl, moments, ?_, rfl⟩
            rw [← now]
            refine (List.append_nil _).symm.trans ?_
            rw [isStart]
            exact (List.append_assoc ..).symm
        | cons first rest =>
            obtain ⟨rfl, rfl⟩ := List.cons.inj others
            exact ⟨[], call, calls, before, rest, rfl, now, rfl, rfl⟩

end AudienceRun

end PeerLink
