import PeerLink.Event
import PeerLink.Observer.SubscriptionId
import PeerLink.Peer.Connection
import PeerLink.Rpc.Call

/-!
Contract: the account of what happened to a peer, in order.

Owns: the notes of an account, and the parties they speak of: observers and what they do, goodbye
handlers and what becomes of a goodbye, and those who ask the remote side who it is.

Does not own: when a note is made.
-/

namespace PeerLink.Peer

/-- What an observer does to its own peer when it is called: it fails, acts on the registry of
observers, leaves the peer, or looks at it. Two limits are set here. An observer makes no other use
of the peer; in particular it adjusts no reputation, since the authority that judges belongs to the
node. And what it subscribes does nothing when it is called. Observers that subscribe others to any
depth are `ObserverScript`s, which run against a registry alone. -/
inductive Reaction where
  | panic
  /-- Subscribes an observer that does nothing when called. -/
  | subscribe (name : String)
  | unsubscribe (id : SubscriptionId)
  | disconnect (reason : Option DisconnectReason)
  /-- Asks for a clean disconnect and does not wait for its end. -/
  | disconnectCleanly (reason : DisconnectReason)
  | look
deriving DecidableEq, Repr

structure Observer where
  name : String
  reactions : List Reaction := []
deriving DecidableEq, Repr

/-- A completed reaction, with its answer. -/
inductive Deed where
  | subscribed (id : SubscriptionId)
  | unsubscribed (found : Bool)
  | disconnected
  | disconnectedCleanly
  | looked (connected : Bool) (record : Option DisconnectRecord)
deriving DecidableEq, Repr

/-- How a goodbye ends. A panic may come with a text. -/
inductive GoodbyeOutcome where
  | said
  | failed (fault : DisconnectError)
  | panicked (message : Option String)
deriving DecidableEq, Repr

/-- The protocol by which a peer says goodbye. -/
inductive GoodbyeHandler where
  /-- It ends as laid down, or waits to be told. -/
  | scripted (outcome : Option GoodbyeOutcome)
  /-- It sends a goodbye request over the peer, and waits for it so many milliseconds. -/
  | request (timeoutMs : Nat)
deriving DecidableEq, Repr

/-- Who asked the remote side to identify itself. -/
inductive Inquirer where
  /-- The peer, to fill its identity slot. -/
  | check
  /-- A caller, for its own use. -/
  | caller
deriving DecidableEq, Repr

inductive Note where
  | closeAsked
  /-- A delegate was called; it opens a stream for its method first. -/
  | called (call : Rpc.Call)
  /-- The stream opened; calls that get so far are numbered over all methods. -/
  | started (start : Nat) (call : Rpc.Call)
  /-- A chunk of the response to a send arrived. -/
  | responded (send : Nat) (chunk : Rpc.Bytes)
  /-- The response to a send is complete. -/
  | responseEnded (send : Nat) (result : Rpc.CallResult)
  /-- The stream of a completed call was cut off. -/
  | streamCut (method : Rpc.Method)
  | identifyAsked (inquirer : Inquirer)
  | identified (inquirer : Inquirer) (outcome : Identification)
  | goodbyeAsked (handler : GoodbyeHandler) (reason : DisconnectReason)
  /-- A goodbye request made by a caller ended. -/
  | goodbyeEnded (outcome : GoodbyeOutcome)
  | notified (id : SubscriptionId) (observer : String) (record : DisconnectRecord)
  | reacted (observer : String) (deed : Deed)
  /-- A reputation authority that follows a script was asked about this peer. -/
  | judged (adjustment : Reputation.Adjustment)
  | emitted (occurrence : Occurrence)
  | logged (line : LogLine)
deriving DecidableEq, Repr

end PeerLink.Peer
