import PeerLink.Observer.Registry

/-!
Contract: what subscribing, unsubscribing and announcing do to the announced record, and how a
property is kept while observers are called one after the other.

Owns: these facts, for a registry of anything.

Does not own: what the observers do.
-/

namespace PeerLink.Registry

variable {ω σ : Type} {registry later : Registry ω}

/-- A call that keeps a property keeps it when it is made for one item after the other. -/
theorem callEach_preserves {call : ω → σ → Option String × σ} {holds : σ → Prop}
    (each : ∀ item state, holds state → holds (call item state).2) (items : List ω) {state : σ}
    (initially : holds state) : holds (callEach call items state).2 := by
  induction items generalizing state with
  | nil => exact initially
  | cons first rest inductionHypothesis =>
      have called := each first state initially
      unfold callEach
      split
      · rename_i later equal
        rw [equal] at called
        exact inductionHypothesis called
      · rename_i failure later equal
        rw [equal] at called
        exact called

theorem announced?_subscribe? {observer : ω} {id : SubscriptionId}
    (subscribed : registry.subscribe? observer = some (id, later)) :
    later.announced? = registry.announced? := by
  unfold subscribe? at subscribed
  obtain ⟨nextId, -, entry⟩ := Option.map_eq_some_iff.mp subscribed
  split at entry <;> cases entry <;> simp [announced?, *]

theorem announced?_unsubscribe (registry : Registry ω) (id : SubscriptionId) :
    (registry.unsubscribe id).2.announced? = registry.announced? := by
  unfold unsubscribe
  split <;> simp [announced?, *]

theorem announced?_announce? {record : DisconnectRecord} {called : List (SubscriptionId × ω)}
    (announces : registry.announce? record = some (called, later)) :
    later.announced? = some record := by
  unfold announce? at announces
  split at announces <;> cases announces
  rfl

end PeerLink.Registry
