import PeerLink.Fault

/-!
Contract: requests on their way.

Owns: delegates and how they conduct a call, tickets, calls with everything their delegate needs,
what the remote side does with a call, and what the sender learns in the end.

Does not own: the queues in which calls wait.
-/

namespace PeerLink.Rpc

abbrev Bytes := List UInt8

/-- How a delegate conducts a call once its stream is open. -/
inductive Conduct where
  /-- It answers at once with the request as the only chunk. -/
  | instant
  | panics
  | gated
deriving DecidableEq, Repr

/-- Who performs the calls of one method. The tag tells delegates of one method apart. -/
structure Delegate where
  method : Method
  conduct : Conduct
  tag : String
deriving DecidableEq, Repr

inductive ResponseSink where
  /-- They are reported for the send of this number. -/
  | send (number : Nat)
  | discard
deriving DecidableEq, Repr

/-- Names a call: its method, and how many calls of that method were accepted before it. -/
structure Ticket where
  method : Method
  index : Nat
deriving DecidableEq, Repr

/-- An accepted call, with all that is needed to perform it when its time comes. -/
structure Call where
  delegate : Delegate
  index : Nat
  body : Bytes
  sink : ResponseSink
deriving DecidableEq, Repr

def Call.method (call : Call) : Method := call.delegate.method

def Call.ticket (call : Call) : Ticket := ⟨call.method, call.index⟩

/-- What becomes of a call that waits for the remote side. -/
inductive CallOutcome where
  | answered (chunks : List Bytes)
  | failed (fault : RpcError)
  | panicked
deriving DecidableEq, Repr

inductive CallResult where
  | completed
  | failed (fault : RpcError)
deriving DecidableEq, Repr

/-- The result that belongs to an outcome: a call that panics is an aborted one. -/
def CallOutcome.result : CallOutcome → CallResult
  | answered _ => .completed
  | failed fault => .failed fault
  | panicked => .failed .aborted

end PeerLink.Rpc
