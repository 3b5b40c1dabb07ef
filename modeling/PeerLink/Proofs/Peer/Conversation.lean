import PeerLink.Proofs.Peer.Lane
import PeerLink.Proofs.Peer.Rest

/-!
Contract: a peer over which requests are sent, and nothing else happens.

A script says what is done about requests from outside, and when the peer is left to itself until it
rests. Along a script the line holds nothing but calls and the look of the watcher.

Owns: scripts of requests, the moves they stand for, their erasure, and what holds of a peer along them.

Does not own: what the requests come to.
-/

namespace PeerLink.Peer

/-! ## Scripts of requests -/

/-- What is done about requests from outside. -/
inductive RpcAction where
  | send (method : Rpc.Method) (body : Rpc.Bytes) (sink : Rpc.ResponseSink)
  /-- The remote side deals with the call of this ticket, if it waits. -/
  | complete (ticket : Rpc.Ticket) (outcome : Rpc.CallOutcome)
  | wait
deriving DecidableEq, Repr

structure RpcStep where
  action : RpcAction
  /-- Whether the peer comes to rest before the next step. -/
  settles : Bool
deriving DecidableEq, Repr

namespace RpcAction

def method? : RpcAction → Option Rpc.Method
  | send method _ _ => some method
  | complete ticket _ => some ticket.method
  | wait => none

/-- The moves of a peer that an action stands for. -/
def moves (peer : Peer) : RpcAction → List Move
  | send method body sink => [.send method body sink]
  | complete ticket outcome =>
      ((peer.waitingFor? ticket).map fun waiting => Move.tellCall waiting.start outcome).toList
  | wait => []

end RpcAction

/-- The step without what it does about methods that are to be erased; it settles as before. -/
def RpcStep.erase (erased : Rpc.Method → Bool) (step : RpcStep) : RpcStep :=
  if step.action.method?.any erased then { step with action := .wait } else step

/-- The moves of a peer that a step stands for. To come to rest takes as many turns as there is work;
no turn of a request looks at the clock. -/
def RpcStep.moves (clock : Clock) (peer : Peer) (step : RpcStep) : List Move :=
  let acts := step.action.moves peer
  acts ++ if step.settles then List.replicate (peer.play acts).work (.turn clock) else []

/-- The moves of a peer that a script stands for. -/
def movesOf (clock : Clock) (peer : Peer) : List RpcStep → List Move
  | [] => []
  | step :: rest =>
      step.moves clock peer ++ (peer.play (step.moves clock peer)).movesOf clock rest

/-- A peer after a script of requests. -/
def follow (clock : Clock) (peer : Peer) (steps : List RpcStep) : Peer :=
  peer.play (peer.movesOf clock steps)

theorem follow_cons (clock : Clock) (peer : Peer) (step : RpcStep) (rest : List RpcStep) :
    peer.follow clock (step :: rest) = (peer.play (step.moves clock peer)).follow clock rest := by
  rw [follow, movesOf, play_append]
  rfl

theorem movesOf_append (clock : Clock) (peer : Peer) (earlier later : List RpcStep) :
    peer.movesOf clock (earlier ++ later) =
      peer.movesOf clock earlier ++ (peer.follow clock earlier).movesOf clock later := by
  induction earlier generalizing peer with
  | nil => rfl
  | cons step rest inductionHypothesis =>
      rw [List.cons_append, movesOf, movesOf, inductionHypothesis, follow_cons, List.append_assoc]

/-- Whether a move is one of requests. -/
def Move.isRpc : Move → Bool
  | .send _ _ _ | .tellCall _ _ | .turn _ => true
  | _ => false

theorem RpcAction.isRpc_moves {peer : Peer} (action : RpcAction) :
    ∀ move ∈ action.moves peer, move.isRpc = true := by
  intro move member
  cases action with
  | send method body sink =>
      rw [List.mem_singleton.mp member]
      rfl
  | complete ticket outcome =>
      obtain ⟨waiting, -, rfl⟩ := Option.map_eq_some_iff.mp (Option.mem_toList.mp member)
      rfl
  | wait => cases member

theorem RpcStep.isRpc_moves {peer : Peer} (step : RpcStep) (clock : Clock) :
    ∀ move ∈ step.moves clock peer, move.isRpc = true := by
  intro move member
  rcases List.mem_append.mp member with acts | settles
  · exact step.action.isRpc_moves move acts
  · split at settles
    · rw [List.eq_of_mem_replicate settles]
      rfl
    · cases settles

theorem isRpc_movesOf {peer : Peer} (clock : Clock) (steps : List RpcStep) :
    ∀ move ∈ peer.movesOf clock steps, move.isRpc = true := by
  induction steps generalizing peer with
  | nil =>
      intro move member
      cases member
  | cons step rest inductionHypothesis =>
      intro move member
      rcases List.mem_append.mp member with now | later
      · exact step.isRpc_moves clock move now
      · exact inductionHypothesis move later

/-! ## A peer with nothing but requests -/

/-- Nothing is under way for the peer but requests, and its watcher. -/
structure Plain (peer : Peer) : Prop where
  turns : ∀ turn ∈ peer.line, turn.isPlain = true
  noExchange : peer.exchanges = []
  nobody : peer.observers.waiting = []

namespace Plain

variable {peer : Peer}

theorem enlist (plain : peer.Plain) (turn : Turn) (isPlain : turn.isPlain = true) :
    (peer.enlist turn).Plain where
  turns := by
    intro other member
    rcases List.mem_append.mp member with earlier | added
    · exact plain.turns other earlier
    · rw [List.mem_singleton.mp added]
      exact isPlain
  noExchange := plain.noExchange
  nobody := plain.nobody

theorem enlistCall (plain : peer.Plain) (call : Option Rpc.Call) : (peer.enlistCall call).Plain := by
  cases call with
  | none => exact plain
  | some call => exact plain.enlist (.call call) rfl

theorem send (plain : peer.Plain) (method : Rpc.Method) (body : Rpc.Bytes)
    (sink : Rpc.ResponseSink) : (peer.send method body sink).2.Plain := by
  unfold Peer.send
  split
  · exact plain
  · rename_i accepted _
    have stored : { peer with table := accepted.table }.Plain :=
      ⟨plain.turns, plain.noExchange, plain.nobody⟩
    exact stored.enlistCall accepted.started

theorem tellOpenCall (plain : peer.Plain) (start : Nat) (outcome : Rpc.CallOutcome) :
    (peer.tellOpenCall start outcome).2.Plain := by
  unfold Peer.tellOpenCall
  split
  · exact plain
  · rename_i waiting _
    have heard : { peer with
        openCalls := peer.openCalls.filter (·.start != start) }.Plain :=
      ⟨plain.turns, plain.noExchange, plain.nobody⟩
    exact heard.enlist (.callTold waiting.call outcome) rfl

theorem wakeExchange (plain : peer.Plain) (ticket : Rpc.Ticket) :
    (peer.wakeExchange ticket).Plain := by
  have nothing : peer.wakeExchange ticket = peer := by
    simp only [Peer.wakeExchange, plain.noExchange, List.find?_nil]
  rw [nothing]
  exact plain

theorem concludeCall (plain : peer.Plain) (call : Rpc.Call) (result : Rpc.CallResult) :
    (peer.concludeCall call result).Plain := by
  have released : { peer with table := (peer.table.release call.method).2 }.Plain :=
    ⟨plain.turns, plain.noExchange, plain.nobody⟩
  have enlisted := released.enlistCall (peer.table.release call.method).1
  apply wakeExchange
  exact ⟨enlisted.turns, enlisted.noExchange, enlisted.nobody⟩

theorem tellCall (plain : peer.Plain) (call : Rpc.Call) (outcome : Rpc.CallOutcome) :
    (peer.tellCall call outcome).Plain := by
  have heard : (peer.noteAll (sinkNotes call.sink outcome)).Plain :=
    ⟨plain.turns, plain.noExchange, plain.nobody⟩
  exact heard.concludeCall call _

theorem makeCall (plain : peer.Plain) (call : Rpc.Call) : (peer.makeCall call).Plain := by
  have opened : (peer.opened call).Plain := ⟨plain.turns, plain.noExchange, plain.nobody⟩
  cases returns : peer.connection.return? call with
  | none =>
      rw [makeCall_of_wait peer returns]
      exact ⟨opened.turns, opened.noExchange, opened.nobody⟩
  | some outcome =>
      cases opens : peer.connection.openStream.1 with
      | none =>
          rw [makeCall_of_return peer opens returns]
          exact opened.tellCall call outcome
      | some fault =>
          rw [makeCall_of_fault peer opens]
          have called : { peer.note (.called call) with
              connection := peer.connection.openStream.2 }.Plain :=
            ⟨plain.turns, plain.noExchange, plain.nobody⟩
          exact called.concludeCall call _

theorem watch (plain : peer.Plain) : peer.watch.Plain := by
  unfold Peer.watch
  split
  · obtain ⟨observers, nobody, announced⟩ := announce_of_nobody ({ peer with
      link := peer.link.markClosed.2
      watcher := .ended }.emit (.connectionClosed peer.link.markClosed.1)) plain.nobody
      peer.link.markClosed.1
    dsimp only
    rw [announced]
    exact ⟨plain.turns, plain.noExchange, nobody⟩
  · exact ⟨plain.turns, plain.noExchange, plain.nobody⟩

theorem popped (plain : peer.Plain) {turn : Turn} {rest : List Turn}
    (line : peer.line = turn :: rest) :
    turn.isPlain = true ∧ { peer with line := rest }.Plain := by
  have turns := plain.turns
  rw [line] at turns
  obtain ⟨first, others⟩ := List.forall_mem_cons.mp turns
  exact ⟨first, others, plain.noExchange, plain.nobody⟩

theorem turn (plain : peer.Plain) (clock : Clock) : (peer.move (.turn clock)).Plain := by
  cases line : peer.line with
  | nil =>
      rw [move_turn_of_nil line]
      exact plain
  | cons turn rest =>
      obtain ⟨isPlain, popped⟩ := plain.popped line
      rw [move_turn_of_cons line]
      cases turn with
      | watch => exact popped.watch
      | call call => exact popped.makeCall call
      | callTold call outcome => exact popped.tellCall call outcome
      | _ => cases isPlain

end Plain

/-! ## What becomes of the connection -/

theorem Connection.openStream_of_unprepared {connection : Connection}
    (unprepared : connection.streamReplies = []) : connection.openStream.2 = connection := by
  unfold openStream
  rw [unprepared]
  split <;> rfl

/-- Whether a change of this aspect shows in the connection. -/
def Aspect.inConnection : Aspect → Bool
  | .replies | .closing => true
  | _ => false

section Connection

variable {before after : Peer}

theorem Change.connection_eq {aspect : Aspect} (change : Change before aspect after)
    (unseen : aspect.inConnection = false) : after.connection = before.connection := by
  cases change with
  | replies | closes => cases unseen
  | _ => rfl

theorem ChangesOnly.connection_eq {aspects : List Aspect} (changes : before.ChangesOnly aspects after)
    (unseen : aspects.any Aspect.inConnection = false) : after.connection = before.connection :=
  changes.view_eq Change.connection_eq unseen

variable (peer : Peer)

theorem connection_makeCall (call : Rpc.Call) :
    (peer.makeCall call).connection = peer.connection.openStream.2 := by
  cases returns : peer.connection.return? call with
  | none =>
      rw [makeCall_of_wait peer returns]
      rfl
  | some outcome =>
      cases opens : peer.connection.openStream.1 with
      | none =>
          rw [makeCall_of_return peer opens returns]
          exact (changes_tellCall _ call outcome).connection_eq rfl
      | some fault =>
          rw [makeCall_of_fault peer opens]
          exact (changes_concludeCall _ call _).connection_eq rfl

theorem connection_watch : peer.watch.connection = peer.connection := by
  unfold Peer.watch
  split
  · exact (changes_announce _ _).connection_eq rfl
  · rfl

variable {peer}

/-- Requests leave a connection alone that has nothing prepared for streams. -/
theorem Plain.connection_move (plain : peer.Plain)
    (unprepared : peer.connection.streamReplies = []) {move : Move} (isRpc : move.isRpc = true) :
    (peer.move move).connection = peer.connection := by
  cases move with
  | send method body sink => exact (peer.changes_send method body sink).connection_eq rfl
  | tellCall start outcome => exact (peer.changes_tellOpenCall start outcome).connection_eq rfl
  | turn clock =>
      cases line : peer.line with
      | nil => rw [move_turn_of_nil line]
      | cons turn rest =>
          obtain ⟨isPlain, popped⟩ := plain.popped line
          rw [move_turn_of_cons line]
          cases turn with
          | watch => exact connection_watch { peer with line := rest }
          | call call =>
              have asked := connection_makeCall { peer with line := rest } call
              exact asked.trans (Connection.openStream_of_unprepared unprepared)
          | callTold call outcome => exact (changes_tellCall _ call outcome).connection_eq rfl
          | _ => cases isPlain
  | _ => cases isRpc

end Connection

/-- A peer with nothing but requests, in a state that a history can lead to. -/
structure Conversing (slots : Nat) (peer : Peer) : Prop where
  plain : peer.Plain
  fit : peer.Fit
  lawful : ∃ returned, (peer.traffic returned).Lawful slots

namespace Conversing

variable {slots : Nat} {peer : Peer}

theorem sound (conversing : peer.Conversing slots) : peer.table.Sound slots :=
  conversing.lawful.elim fun _ lawful => lawful.sound

theorem distinct (conversing : peer.Conversing slots) :
    (peer.openCalls.map OpenCall.start).Nodup :=
  conversing.lawful.elim fun _ lawful => lawful.keyed.distinct

theorem move (conversing : peer.Conversing slots) {move : Move} (isRpc : move.isRpc = true) :
    (peer.move move).Conversing slots where
  plain := by
    cases move with
    | send method body sink => exact conversing.plain.send method body sink
    | tellCall start outcome => exact conversing.plain.tellOpenCall start outcome
    | turn clock => exact conversing.plain.turn clock
    | _ => cases isRpc
  fit := conversing.fit.move move
  lawful := by
    obtain ⟨returned, lawful⟩ := conversing.lawful
    exact ⟨_, (peer.traffic_move move).lawful lawful⟩

theorem play (conversing : peer.Conversing slots) {moves : List Move}
    (areRpc : ∀ move ∈ moves, move.isRpc = true) : (peer.play moves).Conversing slots := by
  induction moves generalizing peer with
  | nil => exact conversing
  | cons move rest inductionHypothesis =>
      apply inductionHypothesis
      · exact conversing.move (areRpc move List.mem_cons_self)
      · intro other member
        exact areRpc other (List.mem_cons_of_mem _ member)

end Conversing

theorem conversing_create (settings : Settings) (address : PeerAddress) (publicKey : String)
    (dialled : Bool) (connection : Connection) (delegates : List Rpc.Delegate) :
    (create settings address publicKey dialled connection delegates).Conversing
      (max 1 settings.maxConcurrentRequests) where
  plain := by
    refine ⟨?_, rfl, rfl⟩
    intro turn member
    rw [List.mem_singleton.mp member]
    rfl
  fit := fit_create ..
  lawful := by
    refine ⟨[], ?_⟩
    rw [traffic_create]
    exact Traffic.lawful_fresh _ delegates

end PeerLink.Peer
