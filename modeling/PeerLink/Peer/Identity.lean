import PeerLink.Peer.State

/-!
Contract: asking the remote side who it is.

Any number of exchanges may be under way at once. The identity slot keeps the first agent string
that arrives; a later one does not replace it, and is reported as the identity that is kept.

Owns: checks of the identity, exchanges for a caller, and letting go of held exchanges.

Does not own: the classification of agent strings.
-/

namespace PeerLink.Peer

/-- Asks the remote side in the background, unless its identity is known. -/
def checkIdentity (peer : Peer) : Peer :=
  if peer.identity.isResolved then peer else peer.enlist (.identify .check)

/-- Asks the remote side in the background on behalf of a caller. -/
def lookUpAgent (peer : Peer) : Peer := peer.enlist (.identify .caller)

/-- The end of an identify exchange. A check keeps an agent string and reports the identity kept, or
reports a fault; an answer without an agent string is not reported. -/
def concludeIdentify (peer : Peer) (inquirer : Inquirer) (outcome : Identification) : Peer :=
  let noted := peer.note (.identified inquirer outcome)
  match inquirer, outcome with
  | .check, .answered (some agent) =>
      let (kept, identity) := noted.identity.resolve (.ofAgent agent)
      { noted with identity := identity }.emit (.identityResolved kept)
  | .check, .failed fault => noted.emit (.identityLookupFailed fault.text)
  | .check, .answered none | .caller, _ => noted

def identify (peer : Peer) (inquirer : Inquirer) : Peer :=
  let (reply, connection) := peer.connection.identify
  let asked := { peer with connection := connection }.note (.identifyAsked inquirer)
  if reply.held then
    { asked with heldIdentifies := asked.heldIdentifies ++ [⟨inquirer, reply.outcome⟩] }
  else asked.concludeIdentify inquirer reply.outcome

/-- Lets the oldest held exchange go. The answer says whether there was one. -/
def releaseIdentify (peer : Peer) : Bool × Peer :=
  match peer.heldIdentifies with
  | [] => (false, peer)
  | held :: rest => (true, { peer with heldIdentifies := rest }.enlist (.identified held))

end PeerLink.Peer
