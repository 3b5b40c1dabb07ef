import PeerLink.Naming

/-!
Contract: why a connection ends.

Owns:
- the disconnect reasons, their stored names, display texts and debug labels;
- the goodbye codes that go over the wire and the body that carries one;
- the record kept when a connection is torn down.

Does not own: when a record is written.
-/

namespace PeerLink

/-- Why a connection was, or is being, torn down. -/
inductive DisconnectReason where
  | shutdown
  | irrelevantNetwork
  | remoteFault
  | protocolError
  | unableToVerifyNetwork
  | tooManyPeers
  | rateLimiting
deriving DecidableEq, Repr, Inhabited

namespace DisconnectReason

def all : List DisconnectReason :=
  [shutdown, irrelevantNetwork, remoteFault, protocolError, unableToVerifyNetwork, tooManyPeers,
    rateLimiting]

def name : DisconnectReason → String
  | shutdown => "shutdown"
  | irrelevantNetwork => "irrelevant_network"
  | remoteFault => "remote_fault"
  | protocolError => "protocol_error"
  | unableToVerifyNetwork => "unable_to_verify_network"
  | tooManyPeers => "too_many_peers"
  | rateLimiting => "rate_limiting"

def text : DisconnectReason → String
  | shutdown => "shutdown"
  | irrelevantNetwork => "irrelevant network"
  | remoteFault => "remote fault"
  | protocolError => "protocol error"
  | unableToVerifyNetwork => "unable to verify network"
  | tooManyPeers => "too many peers"
  | rateLimiting => "rate limiting"

def label : DisconnectReason → String
  | shutdown => "Shutdown"
  | irrelevantNetwork => "IrrelevantNetwork"
  | remoteFault => "RemoteFault"
  | protocolError => "ProtocolError"
  | unableToVerifyNetwork => "UnableToVerifyNetwork"
  | tooManyPeers => "TooManyPeers"
  | rateLimiting => "RateLimiting"

/-- Reads a stored name: only the exact spelling is taken. -/
def ofName? (text : String) : Option DisconnectReason := Naming.find? name all text

def optionDebugText : Option DisconnectReason → String
  | none => "None"
  | some reason => "Some(" ++ reason.label ++ ")"

/-- The code that tells the remote side the reason. A protocol error is sent as a generic fault. -/
def goodbyeCode : DisconnectReason → Nat
  | shutdown => 1
  | irrelevantNetwork => 2
  | remoteFault | protocolError => 3
  | unableToVerifyNetwork => 128
  | tooManyPeers => 129
  | rateLimiting => 130

/-- The reason a received code stands for, if it stands for one. -/
def ofGoodbyeCode? : Nat → Option DisconnectReason
  | 1 => some shutdown
  | 2 => some irrelevantNetwork
  | 3 => some remoteFault
  | 128 => some unableToVerifyNetwork
  | 129 => some tooManyPeers
  | 130 => some rateLimiting
  | _ => none

/-- The low `count` bytes of a number, the lowest first. -/
def littleEndian : Nat → Nat → List UInt8
  | 0, _ => []
  | count + 1, value => UInt8.ofNat value :: littleEndian count (value / 256)

/-- The body of a goodbye request: the code as eight bytes, the lowest first. -/
def goodbyeBody (reason : DisconnectReason) : List UInt8 := littleEndian 8 reason.goodbyeCode

end DisconnectReason

structure DisconnectRecord where
  /-- The recorded cause; missing when the connection closed without a request from this side. -/
  reason : Option DisconnectReason := none
  initiatedLocally : Bool := false
deriving DecidableEq, Repr, Inhabited

namespace DisconnectRecord

/-- The record of a close that this side did not ask for. -/
def remoteClose : DisconnectRecord := {}

def text (record : DisconnectRecord) : String :=
  let cause := match record.reason with
    | some reason => reason.text
    | none => "unknown"
  cause ++ (if record.initiatedLocally then " (local)" else " (remote)")

def debugText (record : DisconnectRecord) : String :=
  "DisconnectRecord \x7b reason: " ++ DisconnectReason.optionDebugText record.reason ++
    ", locally_initiated: " ++ toString record.initiatedLocally ++ " \x7d"

end DisconnectRecord

end PeerLink
