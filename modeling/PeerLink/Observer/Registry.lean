import PeerLink.Disconnect.Reason
import PeerLink.Observer.SubscriptionId

/-!
Contract: who is to be told about a disconnect.

A registry has two phases. While the link is up observers wait in it, ordered by id. The first
announcement takes them all out and leaves the record behind; from then on nobody waits, and a new
observer is told the record at once.

Owns: the phases, subscribing, unsubscribing and announcing, and the order in which observers are
called.

Does not own: what an observer does when called; the caller passes that in.
-/

namespace PeerLink

/-- What a registry holds: waiting observers, or the record that was announced. -/
inductive RegistryPhase (ω : Type) where
  | waiting (observers : List (SubscriptionId × ω))
  | announced (record : DisconnectRecord)
deriving Repr

structure Registry (ω : Type) where
  nextId : SubscriptionId := .first
  phase : RegistryPhase ω := .waiting []
deriving Repr

namespace Registry

variable {ω σ : Type}

/-- The observers that still wait, in order of subscription. -/
def waiting (registry : Registry ω) : List (SubscriptionId × ω) :=
  match registry.phase with
  | .waiting observers => observers
  | .announced _ => []

def announced? (registry : Registry ω) : Option DisconnectRecord :=
  match registry.phase with
  | .waiting _ => none
  | .announced record => some record

/-- Takes an id for a new observer. Before the announcement the observer waits under it; afterwards
it is not kept, and the caller tells it the record that was announced. There is no answer, and no
change, when the ids are used up. -/
def subscribe? (registry : Registry ω) (observer : ω) : Option (SubscriptionId × Registry ω) :=
  registry.nextId.next?.map fun nextId =>
    match registry.phase with
    | .waiting observers =>
        (registry.nextId, ⟨nextId, .waiting (observers ++ [(registry.nextId, observer)])⟩)
    | .announced record => (registry.nextId, ⟨nextId, .announced record⟩)

/-- Removes a waiting observer. The answer says whether there was one under this id. -/
def unsubscribe (registry : Registry ω) (id : SubscriptionId) : Bool × Registry ω :=
  match registry.phase with
  | .waiting observers =>
      (observers.any (·.1 == id), { registry with phase := .waiting (observers.filter (·.1 != id)) })
  | .announced _ => (false, registry)

/-- Announces a record. The first announcement answers with the observers to call, in order of
subscription; later ones answer with nothing and change nothing. -/
def announce? (registry : Registry ω) (record : DisconnectRecord) :
    Option (List (SubscriptionId × ω) × Registry ω) :=
  match registry.phase with
  | .waiting observers => some (observers, { registry with phase := .announced record })
  | .announced _ => none

/-- Makes calls one after the other until one of them fails. The answer is the text of that failure,
if there was one; the calls after it are not made. -/
def callEach (call : ω → σ → Option String × σ) : List ω → σ → Option String × σ
  | [], state => (none, state)
  | first :: rest, state =>
      match call first state with
      | (none, called) => callEach call rest called
      | (some failure, called) => (some failure, called)

end Registry

end PeerLink
