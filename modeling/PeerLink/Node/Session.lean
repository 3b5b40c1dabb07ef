import PeerLink.Node.Basic

/-!
Contract: a node driven from outside, step by step.

Whoever drives the node owns a handle of each peer, waits for the results of the requests and clean
disconnects it asked for, and owns the streams of completed requests.

Owns: the steps, what is kept for each peer between them, and the report after each one.

Does not own: the rules of nodes and peers.
-/

namespace PeerLink

/-! ## What can be asked -/

/-- A step that needs the handle of its peer. -/
inductive HandleAction where
  | profile
  | subscribe (observer : Peer.Observer)
  | unsubscribe (id : SubscriptionId)
  | disconnectImmediately (record : DisconnectRecord)
  | disconnectCleanly (reason : DisconnectReason) (kept : Bool)
  | setHandler (handler : Peer.GoodbyeHandler)
  | installGoodbye
  | send (method : Rpc.Method) (body : Rpc.Bytes) (kept : Bool)
  | adjust (adjustment : Reputation.Adjustment)
  | checkIdentity
deriving DecidableEq, Repr

inductive NodeAction where
  | handle (action : HandleAction)
  /-- Nothing but the turns that follow. -/
  | wait
  | elapse (milliseconds : Nat)
  | remoteClose
  | prepareIdentify (reply : Peer.IdentifyReply)
  | releaseIdentify
  | tellCall (start : Nat) (outcome : Rpc.CallOutcome)
  | tellGoodbye (outcome : Peer.GoodbyeOutcome)
  /-- Cuts off the stream of a completed send. -/
  | cutStream (send : Nat)
  /-- Gives up waiting for the result of a send. -/
  | dropSend (send : Nat)
  | dropHandle
  /-- Takes the handle back, if the peer is alive. -/
  | takeHandle
  | lookUpAgent
  /-- Asks for a goodbye request of one's own. -/
  | goodbye (reason : DisconnectReason) (timeoutMs : Nat)
  /-- Looks at what the score-keeping authority knows of the peer. -/
  | reputation
deriving DecidableEq, Repr

/-- A step: which peer, what, and whether the node settles after it. -/
structure NodeStep where
  place : Nat
  action : NodeAction
  settles : Bool := true
deriving DecidableEq, Repr

/-! ## What is answered -/

structure Profile where
  address : PeerAddress
  publicKey : String
  gossipScore : Int
  dialled : Bool
  debugText : String
  methods : List Rpc.Method
  /-- For every method whether it is served, and the method of the delegate that serves it. -/
  served : List (Bool × Option Rpc.Method)
deriving DecidableEq, Repr

inductive NodeAnswer where
  | nothing
  | noHandle
  | flag (flag : Bool)
  | number (number : Nat)
  | subscribed (id : SubscriptionId)
  | refused (fault : RpcError)
  | panicked (message : String)
  | cut (method : Rpc.Method)
  | profile (profile : Profile)
  | standing (score : Int32) (allowed : Bool) (tracked : Nat)
deriving DecidableEq, Repr

structure PeerView where
  connected : Bool
  record : Option DisconnectRecord
  clientType : ClientType
  agent : Option String
  /-- The served methods with the slots taken and the calls waiting, in order of declaration. -/
  queues : List (Rpc.Method × Nat × Nat)
deriving DecidableEq, Repr

structure NodeReport where
  answer : NodeAnswer
  account : List (Nat × Peer.Note)
  /-- The sends whose result is seen for the first time. -/
  resolved : List (Nat × Rpc.Method × Rpc.CallResult)
  /-- The clean disconnects that are seen to be over for the first time. -/
  cleaned : List Nat
  view : Option PeerView
deriving DecidableEq, Repr

/-! ## What is kept between steps -/

inductive SentRequest where
  | refused
  | dropped
  | pending (ticket : Rpc.Ticket)
  | resolved (method : Rpc.Method) (result : Rpc.CallResult)
deriving DecidableEq, Repr

structure KeptFarewell where
  /-- The peer's number of the clean disconnect. -/
  farewell : Nat
  seen : Bool := false
deriving DecidableEq, Repr

/-- What is kept for one peer. Sends and kept clean disconnects are numbered by their place. -/
structure Belongings where
  sends : List SentRequest := []
  farewells : List KeptFarewell := []
deriving DecidableEq, Repr

/-- The gossip scores of peers: the known ones, and the one of every other peer. -/
structure GossipScores where
  known : List (PeerId × Int) := []
  otherwise : Int := 0
deriving DecidableEq, Repr

structure Session where
  node : Node
  belongings : List Belongings := []
  gossip : GossipScores := {}
deriving Repr

namespace Session

def addPeer (session : Session) (peer : Peer) : Session :=
  { session with
    node := session.node.addPeer peer
    belongings := session.belongings ++ [{}] }

def belongingsAt (session : Session) (place : Nat) : Belongings :=
  (session.belongings[place]?).getD {}

def keep (session : Session) (place : Nat) (belongings : Belongings) : Session :=
  { session with belongings := session.belongings.set place belongings }

/-- Acts on one peer; the action gives the answer. -/
def act (session : Session) (place : Nat) (action : Peer → NodeAnswer × Peer) :
    NodeAnswer × Session :=
  let (answer, node) := session.node.act place action
  (answer.getD .nothing, { session with node := node })

def run (session : Session) (place : Nat) (action : Peer → Peer) : NodeAnswer × Session :=
  session.act place fun peer => (.nothing, action peer)

def ask (session : Session) (place : Nat) (action : Peer → Bool × Peer) : NodeAnswer × Session :=
  session.act place fun peer => Prod.map .flag id (action peer)

def profile (session : Session) (peer : Peer) : Profile :=
  { address := peer.address
    publicKey := peer.publicKey
    gossipScore := (session.gossip.known.lookup peer.id).getD session.gossip.otherwise
    dialled := peer.dialled
    debugText := peer.debugText
    methods := peer.table.methods
    served := Rpc.Method.all.map fun method =>
      (peer.table.supports method, (peer.table.find? method).map Rpc.Channel.method) }

/-- Sends a request. Every send takes the next number, also a refused one. -/
def send (session : Session) (place : Nat) (method : Rpc.Method) (body : Rpc.Bytes) (kept : Bool) :
    NodeAnswer × Session :=
  let own := session.belongingsAt place
  let (ticket, node) := session.node.act place (·.send method body (.send own.sends.length))
  let later := { session with node := node }
  match ticket.join with
  | none =>
      (.refused (.unknownMethod method),
        later.keep place { own with sends := own.sends ++ [.refused] })
  | some ticket =>
      let sent : SentRequest := if kept then .pending ticket else .dropped
      (.number own.sends.length, later.keep place { own with sends := own.sends ++ [sent] })

/-- Asks for a clean disconnect. Only one whose end is waited for takes a number. -/
def disconnectCleanly (session : Session) (place : Nat) (reason : DisconnectReason) (kept : Bool) :
    NodeAnswer × Session :=
  let own := session.belongingsAt place
  let (number, node) := session.node.act place (·.disconnectCleanly reason)
  let later := { session with node := node }
  match number, kept with
  | some farewell, true =>
      (.number own.farewells.length,
        later.keep place { own with farewells := own.farewells ++ [{ farewell := farewell }] })
  | _, _ => (.nothing, later)

def performOnHandle (session : Session) (place : Nat) (peer : Peer) :
    HandleAction → NodeAnswer × Session
  | .profile => (.profile (session.profile peer), session)
  | .subscribe observer =>
      session.act place fun peer =>
        match peer.subscribe observer with
        | (.ok id, later) => (.subscribed id, later)
        | (.error message, later) => (.panicked message, later)
  | .unsubscribe id => session.ask place (·.unsubscribe id)
  | .disconnectImmediately record => session.run place (·.disconnectImmediately record)
  | .disconnectCleanly reason kept => session.disconnectCleanly place reason kept
  | .setHandler handler => session.run place (·.setHandler handler)
  | .installGoodbye => session.run place Peer.installGoodbye
  | .send method body kept => session.send place method body kept
  | .adjust adjustment =>
      let (verdict, node) := session.node.adjust place adjustment
      let answer : NodeAnswer := match verdict with
        | .clockOverflow => .panicked Reputation.clockOverflow
        | .keep | .disconnect => .nothing
      (answer, { session with node := node })
  | .checkIdentity => session.run place Peer.checkIdentity

/-- Cuts off the stream of a send that was seen to complete. -/
def cutStream (session : Session) (place send : Nat) : NodeAnswer × Session :=
  match (session.belongingsAt place).sends[send]? with
  | some (.resolved method .completed) =>
      session.act place fun peer => (.cut method, peer.note (.streamCut method))
  | _ => (.nothing, session)

/-- Gives up waiting for the result of a send. The answer says whether it was waited for. -/
def dropSend (session : Session) (place send : Nat) : NodeAnswer × Session :=
  let own := session.belongingsAt place
  match own.sends[send]? with
  | some (.pending _) =>
      (.flag true, session.keep place { own with sends := own.sends.set send .dropped })
  | _ => (.flag false, session)

def standing (session : Session) (peer : Peer) : NodeAnswer :=
  match session.node.authority with
  | .scripted _ => .standing 0 true 0
  | .scored ledger =>
      .standing (ledger.score peer.id) (ledger.allowsDialling session.node.banClock peer.address)
        ledger.trackedCount

/-- Does what a step asks, without taking a turn. -/
def perform (session : Session) (place : Nat) (peer : Peer) : NodeAction → NodeAnswer × Session
  | .handle action =>
      if peer.owned then session.performOnHandle place peer action else (.noHandle, session)
  | .wait | .elapse _ => (.nothing, session)
  | .remoteClose => session.run place Peer.closeConnection
  | .prepareIdentify reply =>
      session.run place fun peer =>
        { peer with connection := peer.connection.prepareIdentify reply }
  | .releaseIdentify => session.ask place Peer.releaseIdentify
  | .tellCall start outcome => session.ask place (·.tellOpenCall start outcome)
  | .tellGoodbye outcome => session.ask place (·.tellGoodbye outcome)
  | .cutStream send => session.cutStream place send
  | .dropSend send => session.dropSend place send
  | .dropHandle => session.ask place fun peer => (peer.owned, { peer with owned := false })
  | .takeHandle => session.ask place fun peer => (peer.isAlive, { peer with owned := peer.isAlive })
  | .lookUpAgent => session.run place Peer.lookUpAgent
  | .goodbye reason timeoutMs => session.run place (·.enlist (.goodbye reason timeoutMs))
  | .reputation => (session.standing peer, session)

/-- Lets the node go on after a step: time passes if that is the step, and the line is emptied unless
the step leaves it. -/
def goOn (session : Session) (step : NodeStep) : Session :=
  match step.action, step.settles with
  | .elapse milliseconds, _ => { session with node := session.node.elapse milliseconds }
  | _, true => { session with node := session.node.settle }
  | _, false => session

/-- Looks for the results that are waited for. Those that are there are seen, and are the answer. -/
def collect (session : Session) (place : Nat) (peer : Peer) :
    List (Nat × Rpc.Method × Rpc.CallResult) × List Nat × Session :=
  let own := session.belongingsAt place
  let look (sent : SentRequest) : SentRequest :=
    match sent with
    | .pending ticket =>
        (peer.result? ticket).elim sent fun result => .resolved ticket.method result
    | _ => sent
  let resolved := own.sends.zipIdx.filterMap fun (sent, number) =>
    match sent, look sent with
    | .pending _, .resolved method result => some (number, method, result)
    | _, _ => none
  let isOver (kept : KeptFarewell) : Bool := peer.farewellsEnded.contains kept.farewell
  let cleaned := own.farewells.zipIdx.filterMap fun (kept, number) =>
    if isOver kept && !kept.seen then some number else none
  (resolved, cleaned, session.keep place
    { sends := own.sends.map look
      farewells := own.farewells.map fun kept => { kept with seen := kept.seen || isOver kept } })

/-- What can be seen of a peer, if it is alive. -/
def view (peer : Peer) : Option PeerView :=
  if peer.isAlive then
    some
      { connected := peer.link.connected
        record := peer.link.record
        clientType := peer.identity.clientType
        agent := peer.identity.agent?
        queues := peer.table.methods.filterMap fun method =>
          (peer.table.find? method).map fun channel =>
            (method, channel.queue.inFlight, channel.queue.queued) }
  else none

/-- Does a step and reports on it. There is no report for a peer that does not exist. -/
def step (session : Session) (step : NodeStep) : Option NodeReport × Session :=
  match session.node.peers[step.place]? with
  | none => (none, session)
  | some before =>
      let (answer, acted) := session.perform step.place before step.action
      let settled := acted.goOn step
      let after := (settled.node.peers[step.place]?).getD before
      let (resolved, cleaned, later) := settled.collect step.place after
      (some
        { answer := answer
          account := later.node.account.drop session.node.account.length
          resolved := resolved
          cleaned := cleaned
          view := view after }, later)

def steps (session : Session) : List NodeStep → List NodeReport × Session
  | [] => ([], session)
  | first :: rest =>
      let (report, later) := session.step first
      let (reports, last) := later.steps rest
      (report.toList ++ reports, last)

end Session

end PeerLink
