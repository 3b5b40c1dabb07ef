import PeerLink.Disconnect.Reason

/-!
Contract: the one-way change of a link from connected to disconnected.

Owns: the state, its two writers (a request to disconnect, the report that the link closed) and the
rule that the first writer fixes the record.

Does not own: telling anyone, or closing the connection.
-/

namespace PeerLink

/-- Whether a link is still up, and what was recorded when it went down. -/
structure DisconnectState where
  connected : Bool := true
  record : Option DisconnectRecord := none
deriving DecidableEq, Repr

namespace DisconnectState

/-- Marks the link disconnected and writes the record unless there is one. The answer says whether
this call wrote it. -/
def recordDisconnect (state : DisconnectState) (record : DisconnectRecord) : Bool × DisconnectState :=
  match state.record with
  | some _ => (false, { state with connected := false })
  | none => (true, { connected := false, record := some record })

/-- The connection closed. The answer is the final record, which is that of a remote close if none
was written before. -/
def markClosed (state : DisconnectState) : DisconnectRecord × DisconnectState :=
  match state.record with
  | some record => (record, { state with connected := false })
  | none => (.remoteClose, { connected := false, record := some .remoteClose })

section Writers

variable (state : DisconnectState) (record : DisconnectRecord)

@[simp] theorem connected_recordDisconnect : (state.recordDisconnect record).2.connected = false := by
  unfold recordDisconnect
  split <;> rfl

@[simp] theorem record_recordDisconnect :
    (state.recordDisconnect record).2.record = some (state.record.getD record) := by
  unfold recordDisconnect
  split <;> simp [*]

@[simp] theorem wrote_recordDisconnect :
    (state.recordDisconnect record).1 = state.record.isNone := by
  unfold recordDisconnect
  split <;> simp [*]

@[simp] theorem answer_markClosed : state.markClosed.1 = state.record.getD .remoteClose := by
  unfold markClosed
  split <;> simp [*]

@[simp] theorem connected_markClosed : state.markClosed.2.connected = false := by
  unfold markClosed
  split <;> rfl

@[simp] theorem record_markClosed :
    state.markClosed.2.record = some (state.record.getD .remoteClose) := by
  unfold markClosed
  split <;> simp [*]

end Writers

def debugText (state : DisconnectState) : String :=
  let record := match state.record with
    | none => "None"
    | some record => "Some(" ++ record.debugText ++ ")"
  "DisconnectState \x7b link: Mutex \x7b data: LinkState \x7b connected: " ++ toString state.connected ++
    ", record: " ++ record ++ " \x7d \x7d \x7d"

end DisconnectState

end PeerLink
