import PeerLink.Proofs.Peer.Footprint

/-!
Contract: the departure of a peer, and the steps in which it changes.

The departure is the part of a peer that its leaving consists of: the record, whether the connection
closed, the watcher, the observers, the clean disconnects, and of the line and the account what
concerns these. A step is taken under a warrant, which says what the move entitles it to: to ask a
handler for a goodbye, to write the record by a clean request, to tell that the connection closed.

Owns: departures, their steps, and what of a peer does not touch its departure.

Does not own: the proof that every move consists of steps.
-/

namespace PeerLink.Peer

/-- Whether a note concerns the departure. -/
def Note.isDeparture : Note → Bool
  | emitted (.disconnectRequested _ _) | emitted (.connectionClosed _) | notified _ _ _
  | reacted _ _ | goodbyeAsked _ _ => true
  | _ => false

/-- Whether a turn concerns the departure as a whole, and not only the connection. -/
def Turn.isDeparture : Turn → Bool
  | watch | farewell _ _ => true
  | _ => false

structure Departure where
  link : DisconnectState
  closed : Bool
  watcher : Watcher
  observers : Registry Observer
  /-- How many clean disconnects were asked for. -/
  farewells : Nat
  turns : List Turn
  notes : List Note

def departure (peer : Peer) : Departure where
  link := peer.link
  closed := peer.connection.closed
  watcher := peer.watcher
  observers := peer.observers
  farewells := peer.farewells
  turns := peer.line.filter Turn.isDeparture
  notes := peer.account.filter Note.isDeparture

/-- What a move entitles its steps to. -/
structure Warrant where
  asks : GoodbyeHandler → DisconnectReason → Prop
  leaves : DisconnectReason → Prop
  tells : Prop

namespace Departure

/-- A way in which a departure changes. -/
inductive Step (warrant : Warrant) (before : Departure) : Departure → Prop where
  | requestsNow (record : DisconnectRecord) :
      Step warrant before
        { before with
          link := (before.link.recordDisconnect record).2
          notes := before.notes ++ [.emitted (.disconnectRequested record false)] }
  | requestsCleanly (reason : DisconnectReason)
      (warranted : before.link.record = none → warrant.leaves reason) :
      Step warrant before
        { before with
          link := (before.link.recordDisconnect ⟨some reason, true⟩).2
          farewells := before.farewells + 1
          notes := before.notes ++ [.emitted (.disconnectRequested ⟨some reason, true⟩ true)]
          turns := before.turns ++ [.farewell ⟨before.farewells, reason⟩
            (before.link.recordDisconnect ⟨some reason, true⟩).1] }
  /-- The connection closes while the watcher waits for it. -/
  | closesWatched (isWaiting : before.watcher = .waiting) :
      Step warrant before
        { before with
          closed := true
          watcher := .inLine
          turns := before.turns ++ [.watch] }
  /-- The connection closes, and the watcher has seen it closed or will see it. -/
  | closesUnwatched (notWaiting : before.watcher ≠ .waiting) :
      Step warrant before { before with closed := true }
  /-- The watcher finds the connection open and waits. -/
  | looks (rest : List Turn) (turns : before.turns = .watch :: rest)
      (isOpen : before.closed = false) :
      Step warrant before { before with turns := rest, watcher := .waiting }
  /-- The watcher finds the connection closed: the record is final, reported and announced. -/
  | sees (rest : List Turn) (turns : before.turns = .watch :: rest)
      (isClosed : before.closed = true) (warranted : warrant.tells) :
      Step warrant before
        { before with
          turns := rest
          watcher := .ended
          link := before.link.markClosed.2
          notes := before.notes ++ [.emitted (.connectionClosed before.link.markClosed.1)]
          observers := (before.observers.announce? before.link.markClosed.1).elim before.observers
            Prod.snd }
  | subscribes (observer : Observer) (id : SubscriptionId) (observers : Registry Observer)
      (subscribed : before.observers.subscribe? observer = some (id, observers)) :
      Step warrant before { before with observers := observers }
  | unsubscribes (id : SubscriptionId) :
      Step warrant before { before with observers := (before.observers.unsubscribe id).2 }
  | notifies (id : SubscriptionId) (name : String) (record : DisconnectRecord)
      (announced : before.observers.announced? = some record) (warranted : warrant.tells) :
      Step warrant before { before with notes := before.notes ++ [.notified id name record] }
  /-- An observer completes a reaction. What it sees of the link is what is there. -/
  | reacts (name : String) (deed : Deed) (announced : before.observers.announced? ≠ none)
      (sees : ∀ connected record, deed = .looked connected record →
        connected = before.link.connected ∧ record = before.link.record) :
      Step warrant before { before with notes := before.notes ++ [.reacted name deed] }
  /-- A clean disconnect begins whose request did not write the record. -/
  | begins (farewell : Farewell) (rest : List Turn)
      (turns : before.turns = .farewell farewell false :: rest) :
      Step warrant before { before with turns := rest }
  /-- The clean disconnect begins whose request wrote the record; if there is a handler, it is
  asked to say goodbye. -/
  | beginsFirst (farewell : Farewell) (rest : List Turn) (handler : Option GoodbyeHandler)
      (turns : before.turns = .farewell farewell true :: rest)
      (warranted : ∀ asked, handler = some asked → warrant.asks asked farewell.reason) :
      Step warrant before
        { before with
          turns := rest
          notes := before.notes ++
            handler.toList.map fun asked => .goodbyeAsked asked farewell.reason }

/-- Any number of steps under one warrant. -/
abbrev Steps (warrant : Warrant) : Departure → Departure → Prop :=
  Relation.ReflTransGen (Step warrant)

theorem Steps.preserves {warrant : Warrant} {holds : Departure → Prop}
    (each : ∀ {before after}, Step warrant before after → holds before → holds after)
    {before after : Departure} (steps : Steps warrant before after) (initially : holds before) :
    holds after := by
  induction steps with
  | refl => exact initially
  | tail _ step inductionHypothesis => exact each step inductionHypothesis

end Departure

/-! ## What the departure does not show -/

/-- Whether a change of this aspect shows in the departure. -/
def Aspect.inDeparture : Aspect → Bool
  | .request | .closing | .telling | .goodbye => true
  | _ => false

theorem Note.isDeparture_of_aspect {note : Note} (unseen : note.aspect.inDeparture = false) :
    note.isDeparture = false := by
  cases note with
  | emitted occurrence =>
      cases occurrence with
      | disconnectRequested | connectionClosed => cases unseen
      | _ => rfl
  | notified | reacted | goodbyeAsked => cases unseen
  | _ => rfl

theorem Turn.isDeparture_of_aspect {turn : Turn} (unseen : turn.aspect.inDeparture = false) :
    turn.isDeparture = false := by
  cases turn with
  | watch | farewell => cases unseen
  | _ => rfl

section Untouched

variable {before after : Peer}

theorem Change.departure_eq {aspect : Aspect} (change : Change before aspect after)
    (unseen : aspect.inDeparture = false) : after.departure = before.departure := by
  cases change with
  | note note => simp [departure, Peer.note, Note.isDeparture_of_aspect unseen]
  | enlist turn => simp [departure, Peer.enlist, Turn.isDeparture_of_aspect unseen]
  | replies connection same => simp [departure, same]
  | link | farewells | closes | watcher | observers | farewellsEnded => cases unseen
  | _ => rfl

theorem ChangesOnly.departure_eq {aspects : List Aspect} (changes : before.ChangesOnly aspects after)
    (unseen : aspects.any Aspect.inDeparture = false) : after.departure = before.departure :=
  changes.view_eq Change.departure_eq unseen

end Untouched

end PeerLink.Peer
