import PeerLink.Observer.Registry

/-!
Contract: observers that call back into the registry that is calling them.

An observer is called only once a record is announced, so its script runs against what is left of
the registry then: the next id and the record. Every observer it subscribes is called at once, from
inside the subscription.

Owns: observer scripts, their run, and the audience: a registry of scripted observers together with
the account of what they did.

Does not own: the registry's own rules.
-/

namespace PeerLink

/-- What an observer does when it is called, instruction by instruction. -/
inductive ObserverScript where
  | done
  /-- Subscribes another observer, then goes on. -/
  | subscribe (name : String) (script rest : ObserverScript)
  /-- Unsubscribes an id, then goes on. -/
  | unsubscribe (id : SubscriptionId) (rest : ObserverScript)
  /-- Announces a record, then goes on. -/
  | announce (record : DisconnectRecord) (rest : ObserverScript)
  /-- Looks at the registry, then goes on. -/
  | look (rest : ObserverScript)
  | fail (message : String)
deriving DecidableEq, Repr, Inhabited

structure ScriptedObserver where
  name : String
  script : ObserverScript
deriving DecidableEq, Repr

/-- A completed instruction of an observer, with its answer. -/
inductive ObserverDeed where
  | subscribed (id : SubscriptionId)
  | unsubscribed (found : Bool)
  | announced (effective : Bool)
  | looked
deriving DecidableEq, Repr

/-- An entry in the account of what observers saw and did. -/
inductive ObserverEntry where
  /-- A subscription took this id for the observer of this name. -/
  | enrolled (id : SubscriptionId) (observer : String)
  | notified (id : SubscriptionId) (observer : String) (record : DisconnectRecord)
  | did (observer : String) (deed : ObserverDeed)
deriving DecidableEq, Repr

/-- A registry after its announcement, together with the account of the observers. -/
structure Announced where
  nextId : SubscriptionId
  record : DisconnectRecord
  account : List ObserverEntry
deriving DecidableEq, Repr

namespace Announced

/-- What is left of the registry. -/
def registry (state : Announced) : Registry ScriptedObserver := ⟨state.nextId, .announced state.record⟩

def note (state : Announced) (entry : ObserverEntry) : Announced :=
  { state with account := state.account ++ [entry] }

end Announced

/-- Runs a script for the observer called `name`. The answer is the text of the failure that ended
it, if one did; a failure inside a nested subscription ends the outer script too. -/
def ObserverScript.run (name : String) : ObserverScript → Announced → Option String × Announced
  | .done, state => (none, state)
  | .fail message, state => (some message, state)
  | .look rest, state => rest.run name (state.note (.did name .looked))
  | .announce record rest, state =>
      let effective := (state.registry.announce? record).isSome
      rest.run name (state.note (.did name (.announced effective)))
  | .unsubscribe id rest, state =>
      let (found, _) := state.registry.unsubscribe id
      rest.run name (state.note (.did name (.unsubscribed found)))
  | .subscribe inner script rest, state =>
      match state.registry.subscribe? ⟨inner, script⟩ with
      | none => (some SubscriptionId.exhausted, state)
      | some (id, registry) =>
          let enrolled := { state with nextId := registry.nextId }.note (.enrolled id inner)
          match script.run inner (enrolled.note (.notified id inner state.record)) with
          | (some failure, failed) => (some failure, failed)
          | (none, called) => rest.run name (called.note (.did name (.subscribed id)))

/-- Calls a subscribed observer: it is told the record, then its script runs. -/
def Announced.call (subscribed : SubscriptionId × ScriptedObserver) (state : Announced) :
    Option String × Announced :=
  subscribed.2.script.run subscribed.2.name
    (state.note (.notified subscribed.1 subscribed.2.name state.record))

/-- A registry of scripted observers and the account of what they saw and did. -/
structure Audience where
  registry : Registry ScriptedObserver := {}
  account : List ObserverEntry := []
deriving Repr

namespace Audience

def ofAnnounced (state : Announced) : Audience := ⟨state.registry, state.account⟩

def note (audience : Audience) (entry : ObserverEntry) : Audience :=
  { audience with account := audience.account ++ [entry] }

/-- Subscribes an observer. After the announcement it is called inside this subscription, and its
failure is the answer. -/
def subscribe (audience : Audience) (observer : ScriptedObserver) :
    Except String SubscriptionId × Audience :=
  match audience.registry.subscribe? observer with
  | none => (.error SubscriptionId.exhausted, audience)
  | some (id, registry) =>
      let enrolled := { audience with registry := registry }.note (.enrolled id observer.name)
      match registry.announced? with
      | none => (.ok id, enrolled)
      | some record =>
          match Announced.call (id, observer) ⟨registry.nextId, record, enrolled.account⟩ with
          | (none, called) => (.ok id, ofAnnounced called)
          | (some failure, called) => (.error failure, ofAnnounced called)

/-- Removes a waiting observer; the answer says whether there was one. -/
def unsubscribe (audience : Audience) (id : SubscriptionId) : Bool × Audience :=
  let (found, registry) := audience.registry.unsubscribe id
  (found, { audience with registry := registry })

/-- Announces a record and calls the waiting observers, in order, until one fails. The announcement
counts as made whatever they do. The answer says whether it was the first, or is the failure. -/
def announce (audience : Audience) (record : DisconnectRecord) : Except String Bool × Audience :=
  match audience.registry.announce? record with
  | none => (.ok false, audience)
  | some (observers, registry) =>
      match Registry.callEach Announced.call observers
          ⟨registry.nextId, record, audience.account⟩ with
      | (none, called) => (.ok true, ofAnnounced called)
      | (some failure, called) => (.error failure, ofAnnounced called)

end Audience

end PeerLink
