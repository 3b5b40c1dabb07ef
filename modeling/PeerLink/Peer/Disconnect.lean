import PeerLink.Peer.State

/-!
Contract: leaving a peer, and telling its observers.

Every request to disconnect writes the record if it is the first, and leads to a request to close
the connection, at once or after a goodbye. Observers are told when the connection has closed,
whoever closed it.

Owns: immediate disconnects, the request for a clean one, the close of the connection, observers and
their reactions, and the watcher.

Does not own: the goodbye in between.
-/

namespace PeerLink.Peer

/-- Disconnects now: writes the record unless there is one, reports the request, and asks the
connection to close in the background. -/
def disconnectImmediately (peer : Peer) (record : DisconnectRecord) : Peer :=
  let (_, link) := peer.link.recordDisconnect record
  ({ peer with link := link }.emit (.disconnectRequested record false)).enlist .close

/-- Disconnects after a goodbye: writes the record unless there is one and reports the request; the
rest happens in the background. The answer is the number of this clean disconnect. -/
def disconnectCleanly (peer : Peer) (reason : DisconnectReason) : Nat × Peer :=
  let record : DisconnectRecord := ⟨some reason, true⟩
  let (first, link) := peer.link.recordDisconnect record
  let reported := { peer with
    link := link
    farewells := peer.farewells + 1 }.emit (.disconnectRequested record true)
  (peer.farewells, reported.enlist (.farewell ⟨peer.farewells, reason⟩ first))

/-- A verdict of the reputation authority. To be dropped means a clean disconnect for a remote
fault. -/
def judge (peer : Peer) (adjustment : Reputation.Adjustment) (dropped : Bool) : Peer :=
  if dropped then
    ((peer.emit (.reputationDisconnect adjustment)).disconnectCleanly .remoteFault).2
  else peer

/-! ## The close of the connection -/

/-- The connection closes, which wakes the watcher. -/
def closeConnection (peer : Peer) : Peer :=
  let closed := { peer with connection := { peer.connection with closed := true } }
  match peer.watcher with
  | .waiting => { closed with watcher := .inLine }.enlist .watch
  | .inLine | .ended => closed

/-- Asks the connection to close and reports a refusal. -/
def close (peer : Peer) : Peer :=
  let (reply, connection) := peer.connection.nextClose
  let asked := { peer with connection := connection }.note .closeAsked
  match reply with
  | .closes => asked.closeConnection
  | .lingers => asked
  | .refuses fault => asked.emit (.connectionCloseFailed fault.text)

/-! ## Observers -/

def observerPanic : String := "observer panic"

/-- Performs a reaction of the observer called `name`. The answer is the text of a panic. An
observer that is subscribed too late to wait is called at once; it does nothing of its own. -/
def react (name : String) (reaction : Reaction) (peer : Peer) : Option String × Peer :=
  match reaction with
  | .panic => (some observerPanic, peer)
  | .subscribe inner =>
      match peer.observers.subscribe? { name := inner } with
      | none => (some SubscriptionId.exhausted, peer)
      | some (id, observers) =>
          let subscribed := { peer with observers := observers }
          let told := match observers.announced? with
            | some record => subscribed.note (.notified id inner record)
            | none => subscribed
          (none, told.note (.reacted name (.subscribed id)))
  | .unsubscribe id =>
      let (found, observers) := peer.observers.unsubscribe id
      (none, { peer with observers := observers }.note (.reacted name (.unsubscribed found)))
  | .disconnect reason =>
      (none, (peer.disconnectImmediately ⟨reason, true⟩).note (.reacted name .disconnected))
  | .disconnectCleanly reason =>
      (none, (peer.disconnectCleanly reason).2.note (.reacted name .disconnectedCleanly))
  | .look =>
      (none, peer.note (.reacted name (.looked peer.link.connected peer.link.record)))

/-- Calls a subscribed observer with a record; its reactions follow until one panics. -/
def callObserver (record : DisconnectRecord) (subscribed : SubscriptionId × Observer) (peer : Peer) :
    Option String × Peer :=
  Registry.callEach (react subscribed.2.name) subscribed.2.reactions
    (peer.note (.notified subscribed.1 subscribed.2.name record))

/-- Subscribes an observer. After the announcement it is called inside this subscription, and the
text of its panic is the answer. -/
def subscribe (peer : Peer) (observer : Observer) : Except String SubscriptionId × Peer :=
  match peer.observers.subscribe? observer with
  | none => (.error SubscriptionId.exhausted, peer)
  | some (id, observers) =>
      let subscribed := { peer with observers := observers }
      match observers.announced? with
      | none => (.ok id, subscribed)
      | some record =>
          match callObserver record (id, observer) subscribed with
          | (none, called) => (.ok id, called)
          | (some failure, called) => (.error failure, called)

/-- Removes a waiting observer; the answer says whether there was one. -/
def unsubscribe (peer : Peer) (id : SubscriptionId) : Bool × Peer :=
  let (found, observers) := peer.observers.unsubscribe id
  (found, { peer with observers := observers })

/-- Announces a record to the waiting observers, unless one was announced before. A panic of an
observer ends the announcement. -/
def announce (peer : Peer) (record : DisconnectRecord) : Peer :=
  match peer.observers.announce? record with
  | none => peer
  | some (waiting, observers) =>
      (Registry.callEach (callObserver record) waiting { peer with observers := observers }).2

/-- The watcher looks at the connection. Once it is closed the record is final: it is reported and
announced, and the watcher ends. -/
def watch (peer : Peer) : Peer :=
  if peer.connection.closed then
    let (record, link) := peer.link.markClosed
    { peer with link := link, watcher := .ended }.emit (.connectionClosed record) |>.announce record
  else { peer with watcher := .waiting }

end PeerLink.Peer
