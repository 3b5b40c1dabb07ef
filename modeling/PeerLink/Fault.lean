import PeerLink.Rpc.Method

/-!
Contract: what can go wrong with a connection, a request or a goodbye.

Owns: the faults of the three layers and of queued work, their texts, the embedding of each layer
into the next, and the chain of causes a fault reports.

Does not own: when a fault arises.
-/

namespace PeerLink

inductive TransportError where
  | connectionClosed
  | streamOpen (protocol reason : String)
  | identify (detail : String)
  | io (detail : String)
deriving DecidableEq, Repr

def TransportError.text : TransportError → String
  | connectionClosed => "Connection closed"
  | streamOpen protocol reason => "Failed to open stream for " ++ protocol ++ ": " ++ reason
  | identify detail => "Identify failed: " ++ detail
  | io detail => "Transport I/O error: " ++ detail

/-- A transport fault has no deeper cause. -/
def TransportError.causes (_ : TransportError) : List String := []

inductive RpcError where
  | unknownMethod (method : Rpc.Method)
  | transport (fault : TransportError)
  | aborted
  | timeout
  | remote (detail : String)
deriving DecidableEq, Repr

/-- The text a request fault is shown as; a transport fault keeps its own text. -/
def RpcError.text : RpcError → String
  | unknownMethod method => "Unknown rpc method invoked: " ++ method.name
  | transport fault => fault.text
  | aborted => "Request aborted before completion"
  | timeout => "Request timed out"
  | remote detail => "Remote error: " ++ detail

/-- The causes of a request fault; a transport fault stands in place of the request fault, so its
causes are the causes. -/
def RpcError.causes : RpcError → List String
  | transport fault => fault.causes
  | _ => []

inductive DisconnectError where
  | goodbye (fault : RpcError)
  | timeout
  | peerDropped
deriving DecidableEq, Repr

def DisconnectError.text : DisconnectError → String
  | goodbye fault => "Goodbye request failed: " ++ fault.text
  | timeout => "Goodbye request timed out"
  | peerDropped => "Peer dropped before goodbye"

/-- The causes of a goodbye fault: a failed request is one, with its own causes after it. -/
def DisconnectError.causes : DisconnectError → List String
  | goodbye fault => fault.text :: fault.causes
  | _ => []

/-- A queued piece of work ended without a result. -/
structure TaskAborted where
deriving DecidableEq, Repr

def TaskAborted.text (_ : TaskAborted) : String :=
  "Queued task was aborted before producing a result"

end PeerLink
