import PeerLink.Peer.Calls
import PeerLink.Peer.Disconnect

/-!
Contract: the goodbye of a clean disconnect.

Only the clean disconnect that wrote the record says goodbye, by the handler installed when its
turn comes. However the goodbye ends, an immediate disconnect follows it. The goodbye request is an
ordinary request of the peer: it waits in the queue of its method, and it goes on there when its
deadline has passed.

Owns: the turns of a clean disconnect, goodbye requests, and their deadlines.

Does not own: the calls that carry them.
-/

namespace PeerLink.Peer

/-- The context under which a panicking goodbye is reported. -/
def cleanDisconnectContext : String := "clean disconnect"

/-- The text that reports a panic which came without one. -/
def unknownPanic : String := "unknown panic"

/-- What is reported before the immediate disconnect. -/
def reportFault (peer : Peer) (reason : DisconnectReason) : GoodbyeOutcome → Peer
  | .failed fault => peer.emit (.cleanDisconnectFailed reason fault.text)
  | .said | .panicked _ => peer

/-- What is reported after the immediate disconnect was asked for. -/
def reportPanic (peer : Peer) : GoodbyeOutcome → Peer
  | .panicked message =>
      peer.emit (.invariantViolation cleanDisconnectContext (message.getD unknownPanic))
  | .said | .failed _ => peer

/-- The end of a clean disconnect: a fault is reported, the immediate disconnect follows, and a
panic is reported after it. A clean disconnect without a goodbye ends as one whose goodbye was
said. -/
def concludeFarewell (peer : Peer) (farewell : Farewell) (outcome : GoodbyeOutcome) : Peer :=
  let left := (peer.reportFault farewell.reason outcome).disconnectImmediately
    ⟨some farewell.reason, true⟩
  let reported := left.reportPanic outcome
  { reported with farewellsEnded := reported.farewellsEnded ++ [farewell.number] }

/-- The end of a goodbye request, told to whom it was made for. -/
def concludeExchange (peer : Peer) (caller : GoodbyeCaller) (reason : DisconnectReason)
    (outcome : GoodbyeOutcome) : Peer :=
  match caller with
  | .farewell number => peer.concludeFarewell ⟨number, reason⟩ outcome
  | .outside => peer.note (.goodbyeEnded outcome)

/-- The line logged when the remote side has taken the goodbye. -/
def goodbyeLine (peer : Peer) (reason : DisconnectReason) : LogLine :=
  ⟨.debug, "Sent goodbye", [("peer", peer.id), ("reason", reason.text)]⟩

/-- How a goodbye request ended, if it has: its result counts first, and without one it is its
deadline that has passed. -/
def exchangeOutcome (peer : Peer) (exchange : GoodbyeExchange) : GoodbyeOutcome :=
  match peer.result? exchange.ticket with
  | some .completed => .said
  | some (.failed fault) => .failed (.goodbye fault)
  | none => .failed .timeout

/-- The turn of a goodbye request that has its result or has reached its deadline. -/
def resumeExchange (peer : Peer) (exchange : GoodbyeExchange) : Peer :=
  let outcome := peer.exchangeOutcome exchange
  let logged := match outcome with
    | .said => peer.note (.logged (peer.goodbyeLine exchange.reason))
    | .failed _ | .panicked _ => peer
  logged.concludeExchange exchange.caller exchange.reason outcome

/-- Sends a goodbye request, which has no result in the turn that sends it. It waits for one until the
deadline, and fails at once if its deadline is one that was seen to pass. That takes a request without
any time to wait, and that no time has passed since deadlines were last looked at. -/
def requestGoodbye (peer : Peer) (clock : Clock) (caller : GoodbyeCaller)
    (reason : DisconnectReason) (timeoutMs : Nat) : Peer :=
  match peer.send .goodbye reason.goodbyeBody .discard with
  | (none, refused) =>
      refused.concludeExchange caller reason (.failed (.goodbye (.unknownMethod .goodbye)))
  | (some ticket, sent) =>
      let deadline := clock.now + timeoutMs
      if clock.hasSeen deadline then sent.concludeExchange caller reason (.failed .timeout)
      else
        { sent with exchanges :=
            sent.exchanges ++ [⟨caller, reason, ticket, deadline, clock.turns⟩] }

def beginFarewell (peer : Peer) (clock : Clock) (farewell : Farewell) (first : Bool) : Peer :=
  if first then
    match peer.handler with
    | none => peer.concludeFarewell farewell .said
    | some handler =>
        let asked := peer.note (.goodbyeAsked handler farewell.reason)
        match handler with
        | .scripted (some outcome) => asked.concludeFarewell farewell outcome
        | .scripted none => { asked with heldGoodbyes := asked.heldGoodbyes ++ [farewell] }
        | .request timeoutMs =>
            asked.requestGoodbye clock (.farewell farewell.number) farewell.reason timeoutMs
  else peer.concludeFarewell farewell .said

/-- Begins a goodbye request for a caller outside. It needs the peer to be alive. -/
def beginGoodbye (peer : Peer) (clock : Clock) (reason : DisconnectReason) (timeoutMs : Nat) :
    Peer :=
  if peer.isAlive then peer.requestGoodbye clock .outside reason timeoutMs
  else peer.note (.goodbyeEnded (.failed .peerDropped))

/-- Tells the oldest waiting goodbye how to end. The answer says whether there was one. -/
def tellGoodbye (peer : Peer) (outcome : GoodbyeOutcome) : Bool × Peer :=
  match peer.heldGoodbyes with
  | [] => (false, peer)
  | farewell :: rest =>
      (true, { peer with heldGoodbyes := rest }.enlist (.goodbyeTold farewell outcome))

/-- Installs a goodbye handler, in place of the one there. -/
def setHandler (peer : Peer) (handler : GoodbyeHandler) : Peer := { peer with handler := handler }

/-- Installs the goodbye request as the handler, with the peer's own timeout. -/
def installGoodbye (peer : Peer) : Peer := peer.setHandler (.request peer.goodbyeTimeoutMs)

end PeerLink.Peer
