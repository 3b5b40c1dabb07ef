import PeerLink.Address
import PeerLink.Client
import PeerLink.Disconnect.Reason
import PeerLink.LogLine
import PeerLink.Reputation.Adjustment

/-!
Contract: what a peer reports to its node.

Owns: the events, their names, which of them report a failure, and the log line each one becomes.

Does not own: who emits an event, and where events go.
-/

namespace PeerLink

inductive Occurrence where
  | identityResolved (identity : ClientIdentity)
  | identityLookupFailed (error : String)
  /-- A disconnect was asked for on this side. -/
  | disconnectRequested (record : DisconnectRecord) (clean : Bool)
  /-- The goodbye failed; an immediate disconnect follows. -/
  | cleanDisconnectFailed (reason : DisconnectReason) (error : String)
  | connectionCloseFailed (error : String)
  | connectionClosed (record : DisconnectRecord)
  /-- The reputation authority asked for this peer to be dropped. -/
  | reputationDisconnect (adjustment : Reputation.Adjustment)
  /-- Something that must never fail did. -/
  | invariantViolation (context detail : String)
deriving DecidableEq, Repr

namespace Occurrence

def kindName : Occurrence → String
  | identityResolved _ => "IdentityResolved"
  | identityLookupFailed _ => "IdentityLookupFailed"
  | disconnectRequested _ _ => "DisconnectRequested"
  | cleanDisconnectFailed _ _ => "CleanDisconnectFailed"
  | connectionCloseFailed _ => "ConnectionCloseFailed"
  | connectionClosed _ => "ConnectionClosed"
  | reputationDisconnect _ => "ReputationDisconnect"
  | invariantViolation _ _ => "InvariantViolation"

def isFailure : Occurrence → Bool
  | identityLookupFailed _ | cleanDisconnectFailed _ _ | connectionCloseFailed _
  | invariantViolation _ _ => true
  | _ => false

end Occurrence

structure Event where
  peer : PeerId
  occurrence : Occurrence
deriving DecidableEq, Repr

/-- The fields of a record as a log line shows them. -/
def DisconnectRecord.logFields (record : DisconnectRecord) : List (String × String) :=
  [("reason", DisconnectReason.optionDebugText record.reason),
    ("locally_initiated", toString record.initiatedLocally)]

/-- The log line of an event; the peer always comes first. -/
def Event.logLine (event : Event) : LogLine :=
  let line (severity : Severity) (message : String) (fields : List (String × String)) : LogLine :=
    ⟨severity, message, ("peer", event.peer) :: fields⟩
  match event.occurrence with
  | .identityResolved identity =>
      line .debug "Resolved peer identity"
        [("agent", identity.agent), ("client_type", identity.clientType.name)]
  | .identityLookupFailed error =>
      line .debug "Failed to retrieve client identity" [("error", error)]
  | .disconnectRequested record clean =>
      line .trace "Disconnecting peer" (record.logFields ++ [("clean", toString clean)])
  | .cleanDisconnectFailed reason error =>
      line .debug "Failed to disconnect cleanly" [("reason", reason.text), ("error", error)]
  | .connectionCloseFailed error =>
      line .warn "Failed to disconnect from peer" [("error", error)]
  | .connectionClosed record => line .debug "Disconnected from peer" record.logFields
  | .reputationDisconnect adjustment =>
      line .debug "Reputation threshold crossed, disconnecting" [("adjustment", adjustment.text)]
  | .invariantViolation context detail =>
      line .error "Invariant violated" [("context", context), ("detail", detail)]

end PeerLink
