import PeerLink.Naming

/-!
Contract: the request methods a connection can carry.

Owns: the methods, their order, names and stream protocols.

Does not own: who serves a method.
-/

namespace PeerLink.Rpc

/-- A request method. Each one is a sub-protocol with a stream protocol of its own. -/
inductive Method where
  | status
  | goodbye
  | beaconBlocksByRange
  | beaconBlocksByRoot
  | blobSidecarsByRange
  | blobSidecarsByRoot
  | ping
  | metadata
deriving DecidableEq, Repr, Inhabited

namespace Method

def all : List Method :=
  [status, goodbye, beaconBlocksByRange, beaconBlocksByRoot, blobSidecarsByRange,
    blobSidecarsByRoot, ping, metadata]

def name : Method → String
  | status => "status"
  | goodbye => "goodbye"
  | beaconBlocksByRange => "beacon_blocks_by_range"
  | beaconBlocksByRoot => "beacon_blocks_by_root"
  | blobSidecarsByRange => "blob_sidecars_by_range"
  | blobSidecarsByRoot => "blob_sidecars_by_root"
  | ping => "ping"
  | metadata => "metadata"

def version : Method → String
  | beaconBlocksByRange | beaconBlocksByRoot | metadata => "2"
  | _ => "1"

def protocol (method : Method) : String :=
  "/eth2/beacon_chain/req/" ++ method.name ++ "/" ++ method.version ++ "/ssz_snappy"

/-- The place of a method in the order of declaration. -/
def position (method : Method) : Nat := all.idxOf method

def ofName? (text : String) : Option Method := Naming.find? name all text

end Method

end PeerLink.Rpc
