import PeerLink.Peer.State

/-!
Contract: requests sent over a peer.

A request for a method that is not served is refused at once and leaves no trace. Any other is
accepted into the queue of its method, and is made when a slot is free, whatever has happened to the
peer by then. A call that ends gives its slot back before its result can be seen.

Owns: sending, the conduct of a call, and its end.

Does not own: goodbye requests beyond waking the one that waits for a result.
-/

namespace PeerLink.Peer

/-- Puts a call that was given a slot, if there is one, at the end of the line. -/
def enlistCall (peer : Peer) : Option Rpc.Call → Peer
  | some call => peer.enlist (.call call)
  | none => peer

/-- Sends a request. The answer is the ticket of the accepted call, or nothing if the method is not
served. -/
def send (peer : Peer) (method : Rpc.Method) (body : Rpc.Bytes) (sink : Rpc.ResponseSink) :
    Option Rpc.Ticket × Peer :=
  match peer.table.accept? method body sink with
  | none => (none, peer)
  | some accepted =>
      (some accepted.ticket, { peer with table := accepted.table }.enlistCall accepted.started)

/-- The result of a call, once it can be seen. -/
def result? (peer : Peer) (ticket : Rpc.Ticket) : Option Rpc.CallResult :=
  peer.results.lookup ticket

/-- Wakes the goodbye request that waits for a call, if there is one. -/
def wakeExchange (peer : Peer) (ticket : Rpc.Ticket) : Peer :=
  match peer.exchanges.find? (·.ticket == ticket) with
  | none => peer
  | some exchange =>
      { peer with exchanges := peer.exchanges.filter (·.ticket != ticket) }.enlist
        (.goodbyeDue exchange)

/-- Ends a call: its slot goes to the next call of its method, then its result is delivered. -/
def concludeCall (peer : Peer) (call : Rpc.Call) (result : Rpc.CallResult) : Peer :=
  let (next, table) := peer.table.release call.method
  let released := { peer with table := table }.enlistCall next
  { released with results := released.results ++ [(call.ticket, result)] }.wakeExchange call.ticket

/-- What a sink hears of the outcome of a call. A panicking call is never reported as ended. -/
def sinkNotes : Rpc.ResponseSink → Rpc.CallOutcome → List Note
  | .discard, _ | .send _, .panicked => []
  | .send number, .failed fault => [.responseEnded number (.failed fault)]
  | .send number, .answered chunks =>
      chunks.map (.responded number) ++ [.responseEnded number .completed]

/-- A sink hears of responses and of their end, and of nothing else. -/
theorem forall_mem_sinkNotes {holds : Note → Prop}
    (responded : ∀ number chunk, holds (.responded number chunk))
    (ended : ∀ number result, holds (.responseEnded number result))
    (sink : Rpc.ResponseSink) (outcome : Rpc.CallOutcome) :
    ∀ note ∈ sinkNotes sink outcome, holds note := by
  intro note member
  unfold sinkNotes at member
  split at member
  · cases member
  · cases member
  · rw [List.mem_singleton.mp member]
    apply ended
  · rcases List.mem_append.mp member with among | last
    · obtain ⟨chunk, -, rfl⟩ := List.mem_map.mp among
      apply responded
    · rw [List.mem_singleton.mp last]
      apply ended

/-- The end of a call whose outcome is known: the sink hears of it, then the call ends. -/
def tellCall (peer : Peer) (call : Rpc.Call) (outcome : Rpc.CallOutcome) : Peer :=
  (peer.noteAll (sinkNotes call.sink outcome)).concludeCall call outcome.result

/-- Makes a call: opens a stream for it and then does as its delegate does. -/
def makeCall (peer : Peer) (call : Rpc.Call) : Peer :=
  let called := peer.note (.called call)
  let (fault, connection) := called.connection.openStream
  let opened := { called with connection := connection }
  match fault with
  | some fault => opened.concludeCall call (.failed (.transport fault))
  | none =>
      let started := { opened with starts := opened.starts + 1 }.note (.started opened.starts call)
      match call.delegate.conduct with
      | .instant => started.tellCall call (.answered [call.body])
      | .panics => started.tellCall call .panicked
      | .gated =>
          { started with openCalls := started.openCalls ++ [⟨opened.starts, call⟩] }

/-- Tells a waiting call what the remote side did. The answer says whether such a call waits. -/
def tellOpenCall (peer : Peer) (start : Nat) (outcome : Rpc.CallOutcome) : Bool × Peer :=
  match peer.openCalls.find? (·.start == start) with
  | none => (false, peer)
  | some waiting =>
      (true, { peer with openCalls := peer.openCalls.filter (·.start != start) }.enlist
        (.callTold waiting.call outcome))

end PeerLink.Peer
