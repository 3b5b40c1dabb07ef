import PeerLink.Fault

/-!
Contract: a connection whose behaviour is laid down beforehand.

Each question to the connection takes the next reply prepared for its kind; when none is left the
connection closes as asked, opens streams, and has nothing to say about itself.

Owns: the prepared replies, and closing, opening a stream and identifying.

Does not own: who is told that the connection closed.
-/

namespace PeerLink.Peer

/-- How a connection takes the request to close. -/
inductive CloseReply where
  | closes
  /-- It agrees but stays open. -/
  | lingers
  | refuses (fault : TransportError)
deriving DecidableEq, Repr

inductive Identification where
  | answered (agent : Option String)
  | failed (fault : TransportError)
deriving DecidableEq, Repr

/-- A prepared identify exchange: its result, and whether it waits to be let go. -/
structure IdentifyReply where
  held : Bool := false
  outcome : Identification
deriving DecidableEq, Repr

/-- The result of an exchange that nobody prepared. -/
def Identification.unprepared : Identification := .failed (.identify "no answer")

/-- A connection: whether it is closed, and its prepared replies. A stream reply is a fault or
nothing, and nothing means that the stream opens. -/
structure Connection where
  closed : Bool := false
  closeReplies : List CloseReply := []
  streamReplies : List (Option TransportError) := []
  identifyReplies : List IdentifyReply := []
deriving DecidableEq, Repr

namespace Connection

/-- Takes the next reply to a request to close, without acting on it. -/
def nextClose (connection : Connection) : CloseReply × Connection :=
  match connection.closeReplies with
  | [] => (.closes, connection)
  | reply :: rest => (reply, { connection with closeReplies := rest })

/-- Opens a stream. The answer is the fault, if there is one; a closed connection opens none and
keeps its prepared replies. -/
def openStream (connection : Connection) : Option TransportError × Connection :=
  if connection.closed then (some .connectionClosed, connection)
  else
    match connection.streamReplies with
    | [] => (none, connection)
    | reply :: rest => (reply, { connection with streamReplies := rest })

def identify (connection : Connection) : IdentifyReply × Connection :=
  match connection.identifyReplies with
  | [] => ({ outcome := .unprepared }, connection)
  | reply :: rest => (reply, { connection with identifyReplies := rest })

/-- Prepares a further identify exchange, after those already prepared. -/
def prepareIdentify (connection : Connection) (reply : IdentifyReply) : Connection :=
  { connection with identifyReplies := connection.identifyReplies ++ [reply] }

/-! ## What only closing changes -/

@[simp] theorem closed_nextClose (connection : Connection) :
    connection.nextClose.2.closed = connection.closed := by
  unfold nextClose
  split <;> rfl

@[simp] theorem closed_openStream (connection : Connection) :
    connection.openStream.2.closed = connection.closed := by
  unfold openStream
  split
  · rfl
  · split <;> rfl

@[simp] theorem closed_identify (connection : Connection) :
    connection.identify.2.closed = connection.closed := by
  unfold identify
  split <;> rfl

end Connection

end PeerLink.Peer
