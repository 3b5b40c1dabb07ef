import PeerLink.LogLine
import PeerLink.Rpc.Call
import PeerLink.Throttle.Queue

/-!
Contract: the methods a connection serves, each behind a queue of its own.

Owns: the table, its construction from delegates (the first delegate of a method serves it, and each
further one is logged and left out), acceptance of a call and the end of one.

Does not own: the conduct of calls.
-/

namespace PeerLink.Rpc

/-- One served method: its delegate, its queue, and how many calls it has accepted. -/
structure Channel where
  delegate : Delegate
  queue : Throttle.Queue Call
  accepted : Nat := 0
deriving DecidableEq, Repr

def Channel.method (channel : Channel) : Method := channel.delegate.method

/-- The served methods, in order of registration. -/
structure Table where
  channels : List Channel := []
deriving DecidableEq, Repr

namespace Table

def find? (table : Table) (method : Method) : Option Channel :=
  table.channels.find? (·.method == method)

def supports (table : Table) (method : Method) : Bool := (table.find? method).isSome

/-- The served methods, in order of declaration. -/
def methods (table : Table) : List Method := Method.all.filter table.supports

/-- The line logged for a delegate that is left out. -/
def duplicateLine (delegate : Delegate) : LogLine :=
  ⟨.warn, "Ignoring duplicate rpc handler registration", [("method", delegate.method.name)]⟩

/-- Registers a delegate with so many slots, unless its method is served already. -/
def register (slots : Nat) (table : Table) (delegate : Delegate) : List LogLine × Table :=
  if table.supports delegate.method then ([duplicateLine delegate], table)
  else ([], ⟨table.channels ++ [{ delegate := delegate, queue := .ofLimit slots }]⟩)

/-- Registers delegates one after the other. The answer also holds the lines logged on the way. -/
def registerAll (slots : Nat) (table : Table) : List Delegate → List LogLine × Table
  | [] => ([], table)
  | delegate :: rest =>
      let (line, registered) := table.register slots delegate
      let (lines, last) := registered.registerAll slots rest
      (line ++ lines, last)

def ofDelegates (slots : Nat) (delegates : List Delegate) : List LogLine × Table :=
  ({} : Table).registerAll slots delegates

/-- Puts a channel in place of the one that serves the same method. -/
def update (table : Table) (channel : Channel) : Table :=
  ⟨table.channels.map fun old => if old.method = channel.method then channel else old⟩

/-- An accepted call: its ticket, the call itself if it starts at once, and the table after it. -/
structure Accepted where
  ticket : Ticket
  started : Option Call
  table : Table
deriving DecidableEq, Repr

/-- Accepts a call of a served method. There is no answer for a method that is not served. -/
def accept? (table : Table) (method : Method) (body : Bytes) (sink : ResponseSink) :
    Option Accepted :=
  (table.find? method).map fun channel =>
    let call : Call := ⟨channel.delegate, channel.accepted, body, sink⟩
    let (started, queue) := channel.queue.offer call
    { ticket := call.ticket
      started := started
      table := table.update { channel with queue := queue, accepted := channel.accepted + 1 } }

/-- Gives back the slot of a call that ended. The answer is the call that takes it over. -/
def release (table : Table) (method : Method) : Option Call × Table :=
  match table.find? method with
  | none => (none, table)
  | some channel =>
      let (next, queue) := channel.queue.release
      (next, table.update { channel with queue := queue })

end Table

end PeerLink.Rpc
