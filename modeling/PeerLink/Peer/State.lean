import PeerLink.Client
import PeerLink.Disconnect.State
import PeerLink.Observer.Registry
import PeerLink.Peer.Note
import PeerLink.Rpc.Table
import PeerLink.Settings

/-!
Contract: one peer and everything that is under way for it.

A background task is in one place at a time: in the line of turns, or in the list of those that wait
for a certain thing. What it waits for moves it to the end of the line. The peer lives as long as
somebody holds it: the owner of the handle, the watcher of the connection, or a task that works on
behalf of the peer itself.

Owns: turns, waiting tasks, the state of a peer, noting, emitting and enlisting, and when a peer is
alive.

Does not own: what happens in a turn.
-/

namespace PeerLink.Peer

structure Clock where
  now : Nat := 0
  /-- How much of that time has passed since deadlines were last looked at. -/
  unseen : Nat := 0
  /-- How many turns were taken so far. -/
  turns : Nat := 0
deriving DecidableEq, Repr

/-- Lets time pass, unseen as yet. -/
def Clock.elapse (clock : Clock) (milliseconds : Nat) : Clock :=
  { clock with now := clock.now + milliseconds, unseen := clock.unseen + milliseconds }

def Clock.look (clock : Clock) : Clock := { clock with unseen := 0 }

def Clock.tick (clock : Clock) : Clock := { clock with turns := clock.turns + 1 }

/-- Whether a deadline had passed when deadlines were last looked at. -/
def Clock.hasSeen (clock : Clock) (deadline : Nat) : Bool := deadline + clock.unseen ≤ clock.now

inductive GoodbyeCaller where
  /-- The clean disconnect of this number. -/
  | farewell (number : Nat)
  /-- A caller outside the peer. -/
  | outside
deriving DecidableEq, Repr

/-- A goodbye request that was sent and waits for its result or its deadline. -/
structure GoodbyeExchange where
  caller : GoodbyeCaller
  reason : DisconnectReason
  ticket : Rpc.Ticket
  deadline : Nat
  /-- The turn in which the request was sent. -/
  since : Nat
deriving DecidableEq, Repr

/-- A clean disconnect whose goodbye handler waits to be told how to end. -/
structure Farewell where
  number : Nat
  reason : DisconnectReason
deriving DecidableEq, Repr

/-- An identify exchange that waits to be let go. -/
structure HeldIdentify where
  inquirer : Inquirer
  outcome : Identification
deriving DecidableEq, Repr

/-- A call whose stream is open and which waits for the remote side. -/
structure OpenCall where
  start : Nat
  call : Rpc.Call
deriving DecidableEq, Repr

inductive Turn where
  /-- The watcher looks whether the connection closed. -/
  | watch
  | close
  /-- A clean disconnect begins; `first` says whether its request wrote the record. -/
  | farewell (farewell : Farewell) (first : Bool)
  /-- A goodbye handler was told how to end. -/
  | goodbyeTold (farewell : Farewell) (outcome : GoodbyeOutcome)
  /-- A caller outside asks for a goodbye request. -/
  | goodbye (reason : DisconnectReason) (timeoutMs : Nat)
  /-- A goodbye request has its result or has reached its deadline. -/
  | goodbyeDue (exchange : GoodbyeExchange)
  | identify (inquirer : Inquirer)
  /-- A held identify exchange was let go. -/
  | identified (held : HeldIdentify)
  /-- A call that was given a slot is made. -/
  | call (call : Rpc.Call)
  /-- The remote side has dealt with a call. -/
  | callTold (call : Rpc.Call) (outcome : Rpc.CallOutcome)
deriving DecidableEq, Repr

/-- Whether a task in the line holds the peer. Calls work on the connection alone, as does an
identify exchange for a caller; a goodbye request for a caller takes hold of the peer only once it
begins. -/
def Turn.holdsPeer : Turn → Bool
  | goodbye _ _ | identify .caller | identified ⟨.caller, _⟩ | call _ | callTold _ _ => false
  | _ => true

/-- Where the task is that watches for the close of the connection. -/
inductive Watcher where
  | inLine
  | waiting
  | ended
deriving DecidableEq, Repr

end Peer

/-- One peer: what it is, what is known of it, and what is under way for it. -/
structure Peer where
  address : PeerAddress
  publicKey : String
  dialled : Bool := true
  /-- How long an installed goodbye request may take, in milliseconds. -/
  goodbyeTimeoutMs : Nat
  connection : Peer.Connection := {}
  table : Rpc.Table := {}
  link : DisconnectState := {}
  observers : Registry Peer.Observer := {}
  identity : IdentitySlot := {}
  handler : Option Peer.GoodbyeHandler := none
  owned : Bool := true
  watcher : Peer.Watcher := .inLine
  line : List Peer.Turn := [.watch]
  /-- Held identify exchanges, the oldest first. -/
  heldIdentifies : List Peer.HeldIdentify := []
  /-- Goodbyes that wait to be told how to end, the oldest first. -/
  heldGoodbyes : List Peer.Farewell := []
  /-- Goodbye requests that wait for their result or deadline, the oldest first. -/
  exchanges : List Peer.GoodbyeExchange := []
  /-- Calls that wait for the remote side, the oldest first. -/
  openCalls : List Peer.OpenCall := []
  /-- How many calls got their stream open. -/
  starts : Nat := 0
  /-- The results of calls, in order of arrival. -/
  results : List (Rpc.Ticket × Rpc.CallResult) := []
  /-- How many clean disconnects were asked for. -/
  farewells : Nat := 0
  /-- The numbers of the clean disconnects that are over, in order. -/
  farewellsEnded : List Nat := []
  account : List Peer.Note := []
deriving Repr

namespace Peer

def id (peer : Peer) : PeerId := peer.address.peerId

def note (peer : Peer) (note : Note) : Peer := { peer with account := peer.account ++ [note] }

def noteAll (peer : Peer) (notes : List Note) : Peer :=
  { peer with account := peer.account ++ notes }

def emit (peer : Peer) (occurrence : Occurrence) : Peer := peer.note (.emitted occurrence)

def enlist (peer : Peer) (turn : Turn) : Peer := { peer with line := peer.line ++ [turn] }

/-- Whether the peer is held by its owner, its watcher, or a task of its own. -/
def isAlive (peer : Peer) : Bool :=
  peer.owned || peer.watcher != .ended || peer.line.any Turn.holdsPeer ||
    peer.heldIdentifies.any (·.inquirer == .check) || !peer.heldGoodbyes.isEmpty ||
    !peer.exchanges.isEmpty

/-- The debug text: address, link and client type. -/
def debugText (peer : Peer) : String :=
  "PeerHandle \x7b address: " ++ peer.address.debugText ++ ", connected: " ++
    toString peer.link.connected ++ ", client_type: " ++ peer.identity.clientType.label ++ " \x7d"

/-- A peer over a fresh connection. Its watcher stands first in the line; a delegate that serves a
method already served is left out and logged. -/
def create (settings : Settings) (address : PeerAddress) (publicKey : String) (dialled : Bool)
    (connection : Connection) (delegates : List Rpc.Delegate) : Peer :=
  let (lines, table) := Rpc.Table.ofDelegates settings.maxConcurrentRequests delegates
  { address := address
    publicKey := publicKey
    dialled := dialled
    goodbyeTimeoutMs := settings.goodbyeTimeoutMs
    connection := connection
    table := table
    account := lines.map .logged }

end Peer

end PeerLink
