import PeerLink.Node.Authority
import PeerLink.Peer.Turns

/-!
Contract: everything that can happen to one peer, in any order.

A move is an operation asked for from outside, a sign from the remote side, a deadline that passes,
or the next turn of the peer's own line. Moves follow each other in any order and in any number, so
a history need not empty the line between two operations, and other peers may take their turns at
any time.

Owns: moves, histories, and which moves ask for a clean disconnect.

Does not own: what holds along a history.
-/

namespace PeerLink.Peer

inductive Move where
  | subscribe (observer : Observer)
  | unsubscribe (id : SubscriptionId)
  | disconnectImmediately (record : DisconnectRecord)
  | disconnectCleanly (reason : DisconnectReason)
  /-- An adjustment is put before the authority as it is then, whatever happened to it before. -/
  | adjust (authority : Authority) (now : Reputation.Instant) (adjustment : Reputation.Adjustment)
  | setHandler (handler : GoodbyeHandler)
  | installGoodbye
  | send (method : Rpc.Method) (body : Rpc.Bytes) (sink : Rpc.ResponseSink)
  | checkIdentity
  | lookUpAgent
  /-- A caller outside asks for a goodbye request. -/
  | askGoodbye (reason : DisconnectReason) (timeoutMs : Nat)
  /-- The remote side closes the connection. -/
  | remoteClose
  | prepareIdentify (reply : IdentifyReply)
  | releaseIdentify
  | tellCall (start : Nat) (outcome : Rpc.CallOutcome)
  | tellGoodbye (outcome : GoodbyeOutcome)
  | cutStream (method : Rpc.Method)
  /-- The owner drops the handle or takes it back. -/
  | hold (owned : Bool)
  /-- The deadline of a goodbye request passes. -/
  | wake (ticket : Rpc.Ticket)
  /-- The next turn of the line is taken. -/
  | turn (clock : Clock)
deriving Repr

/-- The adjustment of a peer by an authority: its notes, and a clean disconnect if it says so. -/
def adjust (peer : Peer) (authority : Authority) (now : Reputation.Instant)
    (adjustment : Reputation.Adjustment) : Peer :=
  let judgement := authority.judge now peer.address adjustment
  (peer.noteAll judgement.notes).judge adjustment
    (decide (judgement.verdict = Reputation.Verdict.disconnect))

section Verdicts

variable {peer : Peer} {authority : Authority} {now : Reputation.Instant}
  {adjustment : Reputation.Adjustment}

theorem adjust_eq_disconnectCleanly
    (drops : (authority.judge now peer.address adjustment).verdict = .disconnect) :
    peer.adjust authority now adjustment =
      (((peer.noteAll (authority.judge now peer.address adjustment).notes).emit
        (.reputationDisconnect adjustment)).disconnectCleanly .remoteFault).2 := by
  simp [adjust, judge, drops]

theorem adjust_eq_noteAll
    (keeps : (authority.judge now peer.address adjustment).verdict ≠ .disconnect) :
    peer.adjust authority now adjustment =
      peer.noteAll (authority.judge now peer.address adjustment).notes := by
  simp [adjust, judge, keeps]

end Verdicts

def move (peer : Peer) : Move → Peer
  | .subscribe observer => (peer.subscribe observer).2
  | .unsubscribe id => (peer.unsubscribe id).2
  | .disconnectImmediately record => peer.disconnectImmediately record
  | .disconnectCleanly reason => (peer.disconnectCleanly reason).2
  | .adjust authority now adjustment => peer.adjust authority now adjustment
  | .setHandler handler => peer.setHandler handler
  | .installGoodbye => peer.installGoodbye
  | .send method body sink => (peer.send method body sink).2
  | .checkIdentity => peer.checkIdentity
  | .lookUpAgent => peer.lookUpAgent
  | .askGoodbye reason timeoutMs => peer.enlist (.goodbye reason timeoutMs)
  | .remoteClose => peer.closeConnection
  | .prepareIdentify reply =>
      { peer with connection := peer.connection.prepareIdentify reply }
  | .releaseIdentify => peer.releaseIdentify.2
  | .tellCall start outcome => (peer.tellOpenCall start outcome).2
  | .tellGoodbye outcome => (peer.tellGoodbye outcome).2
  | .cutStream method => peer.note (.streamCut method)
  | .hold owned => { peer with owned := owned }
  | .wake ticket => peer.wakeExchange ticket
  | .turn clock => (peer.advance? clock).getD peer

/-- A peer after a history. -/
def play (peer : Peer) (moves : List Move) : Peer := moves.foldl move peer

@[simp] theorem play_nil (peer : Peer) : peer.play [] = peer := rfl

@[simp] theorem play_append (peer : Peer) (earlier later : List Move) :
    peer.play (earlier ++ later) = (peer.play earlier).play later := List.foldl_append

@[simp] theorem play_cons (peer : Peer) (first : Move) (rest : List Move) :
    peer.play (first :: rest) = (peer.move first).play rest := rfl

theorem move_turn_of_nil {peer : Peer} (idle : peer.line = []) (clock : Clock) :
    peer.move (.turn clock) = peer := by
  simp [Peer.move, advance?, idle]

theorem move_turn_of_cons {peer : Peer} {turn : Turn} {rest : List Turn}
    (line : peer.line = turn :: rest) (clock : Clock) :
    peer.move (.turn clock) = { peer with line := rest }.take clock turn := by
  simp [Peer.move, advance?, line]

/-- The turn of the clean disconnect that wrote the record, with the goodbye request for a handler. -/
theorem move_turn_of_request {peer : Peer} {farewell : Farewell} {rest : List Turn}
    (line : peer.line = .farewell farewell true :: rest) {timeoutMs : Nat}
    (installed : peer.handler = some (.request timeoutMs)) (clock : Clock) :
    peer.move (.turn clock) =
      ({ peer with line := rest }.note (.goodbyeAsked (.request timeoutMs) farewell.reason)).requestGoodbye
        clock (.farewell farewell.number) farewell.reason timeoutMs := by
  simp [move_turn_of_cons line, take, beginFarewell, installed]

/-- A move by which the peer is asked to leave cleanly, directly or by a verdict, for this reason. -/
def AsksCleanly (peer : Peer) (reason : DisconnectReason) : Move → Prop
  | .disconnectCleanly asked => asked = reason
  | .adjust authority now adjustment =>
      (authority.judge now peer.address adjustment).verdict = .disconnect ∧ reason = .remoteFault
  | _ => False

end PeerLink.Peer
