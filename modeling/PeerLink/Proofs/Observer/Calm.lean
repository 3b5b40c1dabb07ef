import PeerLink.Proofs.Observer.Audience
import PeerLink.Total

/-!
Contract: calls that cannot fail are answered.

Owns: scripts without failures, the number of ids they take, and that a run of such scripts is answered
throughout as long as there are ids enough.

Does not own: what the answers are.
-/

namespace PeerLink

def ObserverScript.mayFail : ObserverScript → Bool
  | .done => false
  | .fail _ => true
  | .look rest | .announce _ rest | .unsubscribe _ rest => rest.mayFail
  | .subscribe _ script rest => script.mayFail || rest.mayFail

/-- The number of ids that a script takes, and with it the scripts it subscribes. -/
def ObserverScript.subscriptions : ObserverScript → Nat
  | .done | .fail _ => 0
  | .look rest | .announce _ rest | .unsubscribe _ rest => rest.subscriptions
  | .subscribe _ script rest => 1 + script.subscriptions + rest.subscriptions

theorem ObserverScript.run_calm (name : String) (script : ObserverScript) (state : Announced)
    (calm : script.mayFail = false)
    (supply : state.nextId.value + script.subscriptions < SubscriptionId.count) :
    (script.run name state).1 = none ∧
      (script.run name state).2.nextId.value = state.nextId.value + script.subscriptions := by
  induction script generalizing name state with
  | done => exact ⟨rfl, rfl⟩
  | fail message => cases calm
  | look rest inductionHypothesis | announce _ rest inductionHypothesis
  | unsubscribe _ rest inductionHypothesis => exact inductionHypothesis name _ calm supply
  | subscribe inner script rest inside outside =>
      obtain ⟨calmInside, calmOutside⟩ := Bool.or_eq_false_iff.mp calm
      have enough : state.nextId.value + (1 + script.subscriptions + rest.subscriptions) <
          SubscriptionId.count := supply
      have next : state.nextId.next? = some ⟨state.nextId.value + 1⟩ := by
        unfold SubscriptionId.next?
        rw [if_pos (by omega)]
      have subscribed : state.registry.subscribe? ⟨inner, script⟩ =
          some (state.nextId, ⟨⟨state.nextId.value + 1⟩, .announced state.record⟩) := by
        unfold Registry.subscribe?
        rw [show state.registry.nextId = state.nextId from rfl, next]
        rfl
      unfold ObserverScript.run
      rw [subscribed]
      dsimp only
      have called := inside inner
        (({ state with nextId := ⟨state.nextId.value + 1⟩ }.note (.enrolled state.nextId inner)).note
          (.notified state.nextId inner state.record)) calmInside
        (by show state.nextId.value + 1 + script.subscriptions < _; omega)
      split
      · rename_i failure later ran
        rw [ran] at called
        cases called.1
      · rename_i later ran
        rw [ran] at called
        have reached : later.nextId.value = state.nextId.value + 1 + script.subscriptions := called.2
        have onward := outside name (later.note (.did name (.subscribed state.nextId))) calmOutside
          (by show later.nextId.value + rest.subscriptions < _; omega)
        refine ⟨onward.1, onward.2.trans ?_⟩
        show later.nextId.value + rest.subscriptions =
          state.nextId.value + (1 + script.subscriptions + rest.subscriptions)
        omega

/-- The number of ids that an observer's script takes. -/
def ScriptedObserver.demand (subscribed : SubscriptionId × ScriptedObserver) : Nat :=
  subscribed.2.script.subscriptions

theorem Announced.call_calm (subscribed : SubscriptionId × ScriptedObserver) (state : Announced)
    (calm : subscribed.2.script.mayFail = false)
    (supply : state.nextId.value + ScriptedObserver.demand subscribed < SubscriptionId.count) :
    (call subscribed state).1 = none ∧ (call subscribed state).2.nextId.value =
      state.nextId.value + ScriptedObserver.demand subscribed :=
  subscribed.2.script.run_calm subscribed.2.name _ calm supply

theorem Announced.callEach_calm (observers : List (SubscriptionId × ScriptedObserver))
    (state : Announced) (calm : ∀ observer ∈ observers, observer.2.script.mayFail = false)
    (supply : state.nextId.value + total ScriptedObserver.demand observers < SubscriptionId.count) :
    (Registry.callEach call observers state).1 = none ∧
      (Registry.callEach call observers state).2.nextId.value =
        state.nextId.value + total ScriptedObserver.demand observers := by
  induction observers generalizing state with
  | nil => exact ⟨rfl, rfl⟩
  | cons first rest inductionHypothesis =>
      rw [total_cons] at supply
      have told := call_calm first state (calm first (by simp)) (by omega)
      unfold Registry.callEach
      split
      · rename_i later ran
        rw [ran] at told
        have reached : later.nextId.value = _ := told.2
        have onward := inductionHypothesis later
          (fun observer member => calm observer (List.mem_cons_of_mem _ member)) (by omega)
        refine ⟨onward.1, onward.2.trans ?_⟩
        rw [total_cons, reached]
        omega
      · rename_i failure later ran
        rw [ran] at told
        cases told.1

namespace AudienceCall

def mayFail : AudienceCall → Bool
  | subscribe observer => observer.script.mayFail
  | unsubscribe _ | announce _ => false

def subscriptions : AudienceCall → Nat
  | subscribe observer => 1 + observer.script.subscriptions
  | unsubscribe _ | announce _ => 0

end AudienceCall

namespace AudienceRun

/-- Nobody who waits may fail, and the ids are enough for them and for `more` subscriptions. -/
structure Calm (run : AudienceRun) (more : Nat) : Prop where
  harmless : ∀ observer ∈ run.audience.registry.waiting, observer.2.script.mayFail = false
  supply : run.taken + total ScriptedObserver.demand run.audience.registry.waiting + more <
    SubscriptionId.count

theorem waiting_of_announced {run : AudienceRun} {record : DisconnectRecord}
    (announced : run.audience.registry.phase = .announced record) :
    run.audience.registry.waiting = [] := by
  unfold Registry.waiting
  rw [announced]

theorem waiting_of_waiting {run : AudienceRun} {observers : List (SubscriptionId × ScriptedObserver)}
    (waits : run.audience.registry.phase = .waiting observers) :
    run.audience.registry.waiting = observers := by
  unfold Registry.waiting
  rw [waits]

theorem calm_of_audience {run : AudienceRun} {audience : Audience} {more : Nat}
    (same : run.audience = audience)
    (harmless : ∀ observer ∈ audience.registry.waiting, observer.2.script.mayFail = false)
    (supply : audience.registry.nextId.value +
      total ScriptedObserver.demand audience.registry.waiting + more < SubscriptionId.count) :
    Calm run more := by
  constructor
  · rw [same]
    exact harmless
  · rw [taken, same]
    exact supply

theorem Calm.subscribe {run : AudienceRun} {observer : ScriptedObserver} {more : Nat}
    (calm : Calm run (1 + observer.script.subscriptions + more))
    (harmless : observer.script.mayFail = false) :
    (∃ deed, (run.audience.perform (.subscribe observer)).1 = .ok deed) ∧
      Calm (run.after (.subscribe observer)) more := by
  obtain ⟨quiet, supply⟩ := calm
  have hasNext : run.audience.registry.nextId.value + 1 < SubscriptionId.count := by
    rw [taken] at supply
    omega
  cases phase : run.audience.registry.phase with
  | waiting observers =>
      rw [waiting_of_waiting phase] at quiet supply
      have performed := Audience.subscribe_of_waiting observer phase hasNext
      refine ⟨⟨.subscribed run.audience.registry.nextId, ?_⟩,
        calm_of_audience (congrArg Prod.snd performed) ?_ ?_⟩
      · show (run.audience.subscribe observer).1.map _ = _
        rw [performed]
        rfl
      · intro other member
        rcases List.mem_append.mp member with earlier | now
        · exact quiet other earlier
        · rw [List.mem_singleton.mp now]
          exact harmless
      · show run.taken + 1 + total ScriptedObserver.demand (observers ++ [(_, observer)]) + more < _
        rw [total_append, total_cons, total_nil, ScriptedObserver.demand]
        dsimp only
        omega
  | announced record =>
      rw [waiting_of_announced phase, total_nil] at supply
      have performed := Audience.subscribe_of_announced observer phase hasNext
      have called := Announced.call_calm (run.audience.registry.nextId, observer)
        (({ run.audience.announcedWith record with
            nextId := ⟨run.audience.registry.nextId.value + 1⟩ }).note
          (.enrolled run.audience.registry.nextId observer.name)) harmless
        (by show run.taken + 1 + observer.script.subscriptions < _; omega)
      refine ⟨⟨.subscribed run.audience.registry.nextId, ?_⟩,
        calm_of_audience (congrArg Prod.snd performed) ?_ ?_⟩
      · show (run.audience.subscribe observer).1.map _ = _
        rw [performed]
        dsimp only
        rw [called.1]
        rfl
      · intro other member
        cases member
      · refine Nat.lt_of_le_of_lt (Nat.le_of_eq (congrArg (· + 0 + more) called.2)) ?_
        show run.taken + 1 + observer.script.subscriptions + 0 + more < _
        omega

theorem Calm.announce {run : AudienceRun} {more : Nat} (calm : Calm run more)
    (record : DisconnectRecord) :
    (∃ deed, (run.audience.perform (.announce record)).1 = .ok deed) ∧
      Calm (run.after (.announce record)) more := by
  obtain ⟨quiet, supply⟩ := calm
  cases phase : run.audience.registry.phase with
  | waiting observers =>
      rw [waiting_of_waiting phase] at quiet supply
      have performed := Audience.announce_of_waiting record phase
      have called := Announced.callEach_calm observers (run.audience.announcedWith record) quiet
        (by show run.taken + _ < _; omega)
      refine ⟨⟨.announced true, ?_⟩, calm_of_audience (congrArg Prod.snd performed) ?_ ?_⟩
      · show (run.audience.announce record).1.map _ = _
        rw [performed]
        dsimp only
        rw [called.1]
        rfl
      · intro other member
        cases member
      · exact Nat.lt_of_le_of_lt (Nat.le_of_eq (congrArg (· + 0 + more) called.2)) supply
  | announced first =>
      have performed := Audience.announce_of_announced record phase
      refine ⟨⟨.announced false, ?_⟩, calm_of_audience (congrArg Prod.snd performed) quiet supply⟩
      show (run.audience.announce record).1.map _ = _
      rw [performed]
      rfl

theorem Calm.unsubscribe {run : AudienceRun} {more : Nat} (calm : Calm run more)
    (id : SubscriptionId) : Calm (run.after (.unsubscribe id)) more := by
  obtain ⟨quiet, supply⟩ := calm
  have performed : (run.after (.unsubscribe id)).audience =
      { run.audience with registry := (run.audience.registry.unsubscribe id).2 } := rfl
  unfold Registry.unsubscribe at performed
  cases phase : run.audience.registry.phase with
  | waiting observers =>
      rw [waiting_of_waiting phase] at quiet supply
      rw [phase] at performed
      refine calm_of_audience performed ?_ ?_
      · intro observer member
        exact quiet observer (List.mem_filter.mp member).1
      · have fewer := total_filter_le ScriptedObserver.demand (·.1 != id) observers
        show run.taken + total ScriptedObserver.demand (observers.filter (·.1 != id)) + more < _
        omega
  | announced record =>
      rw [phase] at performed
      exact calm_of_audience performed quiet supply

theorem Calm.after {run : AudienceRun} {call : AudienceCall} {more : Nat}
    (calm : Calm run (call.subscriptions + more)) (harmless : call.mayFail = false) :
    (∃ deed, (run.audience.perform call).1 = .ok deed) ∧ Calm (run.after call) more := by
  cases call with
  | subscribe observer => exact calm.subscribe harmless
  | unsubscribe id =>
      rw [show (AudienceCall.unsubscribe id).subscriptions = 0 from rfl, Nat.zero_add] at calm
      exact ⟨⟨_, rfl⟩, calm.unsubscribe id⟩
  | announce record =>
      rw [show (AudienceCall.announce record).subscriptions = 0 from rfl, Nat.zero_add] at calm
      exact calm.announce record

/-- Without failures, and with ids enough, every call is answered. -/
theorem Calm.play {run : AudienceRun} (calls : List AudienceCall)
    (calm : Calm run (total AudienceCall.subscriptions calls))
    (harmless : ∀ call ∈ calls, call.mayFail = false) (answered : ¬ run.Failed) :
    ¬ (run.play calls).Failed := by
  induction calls generalizing run with
  | nil => exact answered
  | cons call rest inductionHypothesis =>
      obtain ⟨⟨deed, answer⟩, later⟩ := calm.after (harmless call (by simp))
      refine inductionHypothesis later (fun other member => ?_) ?_
      · exact harmless other (List.mem_cons_of_mem _ member)
      · rintro ⟨entry, member, failure, failed⟩
        rcases List.mem_append.mp member with earlier | now
        · exact answered ⟨entry, earlier, failure, failed⟩
        · obtain rfl := List.mem_singleton.mp now
          cases answer.symm.trans failed

end AudienceRun

end PeerLink
