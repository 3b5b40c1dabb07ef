import PeerLink.Node.Authority
import PeerLink.Peer.Turns

/-!
Contract: several peers on one node, sharing a clock, a line of turns and a reputation authority.

All background work takes turns in one line. It is kept as each peer's own line together with the
order in which peers come up; a turn changes one peer and adds turns of that peer alone. Deadlines are
looked at when the line is empty: then the goodbye requests whose deadline has passed come up, in the
order of their deadlines.

Owns: the node, acting on one peer, settling, the passage of time, and the verdicts of the authority.

Does not own: what a peer does.
-/

namespace PeerLink

structure Node where
  peers : List Peer := []
  /-- Which peer's turn comes next, and after it. -/
  turns : List Nat := []
  clock : Peer.Clock := {}
  authority : Authority
  /-- The reading of the clock that bans are measured by. Time passes on it only outside a node. -/
  banClock : Reputation.Instant
  /-- What happened so far, each note under the place of its peer. -/
  account : List (Nat × Peer.Note) := []
deriving Repr

namespace Node

/-- Puts a changed peer in its place. The turns it now has beyond `kept` join the line, and its new
notes join the account. -/
def commit (node : Node) (place : Nat) (before after : Peer) (kept : Nat) : Node :=
  { node with
    peers := node.peers.set place after
    turns := node.turns ++ List.replicate (after.line.length - kept) place
    account := node.account ++
      (after.account.drop before.account.length).map fun note => (place, note) }

/-- Adds a peer after the others; its watcher joins the line. -/
def addPeer (node : Node) (peer : Peer) : Node :=
  let place := node.peers.length
  { node with
    peers := node.peers ++ [peer]
    turns := node.turns ++ List.replicate peer.line.length place
    account := node.account ++ peer.account.map fun note => (place, note) }

/-- Acts on one peer. There is no answer if there is no such peer. -/
def act {α : Type} (node : Node) (place : Nat) (action : Peer → α × Peer) : Option α × Node :=
  match node.peers[place]? with
  | none => (none, node)
  | some peer =>
      let (answer, later) := action peer
      (some answer, node.commit place peer later peer.line.length)

/-! ## Turns -/

def takeTurn (node : Node) (place : Nat) : Node :=
  let counted := { node with clock := node.clock.tick }
  match node.peers[place]? with
  | none => counted
  | some peer =>
      match peer.advance? node.clock with
      | none => counted
      | some later => counted.commit place peer later (peer.line.length - 1)

/-- The goodbye requests whose deadline has passed, each under the place of its peer, in the order of
their deadlines and, of one deadline, in the order they were sent. -/
def due (node : Node) : List (Nat × Peer.GoodbyeExchange) :=
  let passed := node.peers.zipIdx.flatMap fun (peer, place) =>
    (peer.exchanges.filter fun exchange => exchange.deadline ≤ node.clock.now).map
      fun exchange => (place, exchange)
  passed.mergeSort fun left right =>
    left.2.deadline < right.2.deadline ||
      (left.2.deadline == right.2.deadline && left.2.since ≤ right.2.since)

/-- Looks at the deadlines and wakes the goodbye requests whose deadline has passed. -/
def wakeDue (node : Node) : Node :=
  node.due.foldl (fun node entry =>
    (node.act entry.1 fun peer => ((), peer.wakeExchange entry.2.ticket)).2)
    { node with clock := node.clock.look }

/-- The node at the next turn: an empty line is the time to look at the deadlines. -/
def ready (node : Node) : Node := if node.turns.isEmpty then node.wakeDue else node

def advance? (node : Node) : Option Node :=
  let ready := node.ready
  match ready.turns with
  | [] => none
  | place :: rest => some ({ ready with turns := rest }.takeTurn place)

/-- A bound on the turns still to come if nothing happens from outside. -/
def work (node : Node) : Nat := total Peer.work node.peers

def takeTurns : Nat → Node → Node
  | 0, node => node
  | turns + 1, node =>
      match node.advance? with
      | none => node
      | some later => takeTurns turns later

/-- Takes turns until none is left and no deadline has passed. Each turn uses up a part of the work
counted by `Node.work`, so that count is a sufficient number of turns. A look at the deadlines, which
finds none passed, is the last thing to happen. -/
def settle (node : Node) : Node := (takeTurns node.work node).ready

/-- Lets time pass, and then everything that is due by then happen. -/
def elapse (node : Node) (milliseconds : Nat) : Node :=
  { node with clock := node.clock.elapse milliseconds }.settle

/-! ## Reputation -/

/-- Reports an adjustment for a peer. A verdict to disconnect begins a clean disconnect; a ban that
ends beyond the clock's range leaves the peer alone. -/
def adjust (node : Node) (place : Nat) (adjustment : Reputation.Adjustment) :
    Reputation.Verdict × Node :=
  match node.peers[place]? with
  | none => (.keep, node)
  | some peer =>
      let judgement := node.authority.judge node.banClock peer.address adjustment
      let (_, acted) := { node with authority := judgement.authority }.act place fun peer =>
        ((), (peer.noteAll judgement.notes).judge adjustment (decide (judgement.verdict = Reputation.Verdict.disconnect)))
      (judgement.verdict, acted)

end Node

end PeerLink
