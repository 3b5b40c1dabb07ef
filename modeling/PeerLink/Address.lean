/-!
Contract: who a connection leads to.

Owns: peer ids, the pair of a peer id and the address its connection goes to, and their texts.

Does not own: the inner form of ids and addresses, which are opaque canonical texts here.
-/

namespace PeerLink

abbrev PeerId := String

/-- A peer and the network address its connection was established over. -/
structure PeerAddress where
  peerId : PeerId
  address : String
deriving DecidableEq, Repr, Inhabited

namespace PeerAddress

/-- The address with the peer id appended as its last component. -/
def text (peer : PeerAddress) : String := peer.address ++ "/p2p/" ++ peer.peerId

def debugText (peer : PeerAddress) : String :=
  "PeerAddress \x7b peer_id: PeerId(\"" ++ peer.peerId ++ "\"), address: " ++ peer.address ++ " \x7d"

end PeerAddress

end PeerLink
