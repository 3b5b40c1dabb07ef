import PeerLink.Peer.Goodbye
import PeerLink.Peer.Identity
import PeerLink.Total

/-!
Contract: the turns of one peer.

Owns: what each turn does, taking the next turn of the line, and the bound on the turns still to
come if nothing happens from outside.

Does not own: the order among the turns of several peers.
-/

namespace PeerLink.Peer

def take (peer : Peer) (clock : Clock) : Turn → Peer
  | .watch => peer.watch
  | .close => peer.close
  | .farewell farewell first => peer.beginFarewell clock farewell first
  | .goodbyeTold farewell outcome => peer.concludeFarewell farewell outcome
  | .goodbye reason timeoutMs => peer.beginGoodbye clock reason timeoutMs
  | .goodbyeDue exchange => peer.resumeExchange exchange
  | .identify inquirer => peer.identify inquirer
  | .identified held => peer.concludeIdentify held.inquirer held.outcome
  | .call call => peer.makeCall call
  | .callTold call outcome => peer.tellCall call outcome

def advance? (peer : Peer) (clock : Clock) : Option Peer :=
  match peer.line with
  | [] => none
  | turn :: rest => some ({ peer with line := rest }.take clock turn)

/-- What a turn counts towards `Peer.work`: itself and all it can lead to, as far as that is not
counted elsewhere. -/
def Turn.weight : Turn → Nat
  | watch => 2
  | close => 1
  | farewell _ _ => 4
  | goodbyeTold _ _ => 2
  | goodbye _ _ => 4
  | goodbyeDue _ => 2
  | identify _ => 1
  | identified _ => 1
  | call _ => 1
  | callTold _ _ => 1

/-- What a reaction counts towards `Peer.work`: the turn that it puts in the line. -/
def Reaction.weight : Reaction → Nat
  | disconnect _ => Turn.close.weight
  | disconnectCleanly reason => (Turn.farewell ⟨0, reason⟩ false).weight
  | panic | subscribe _ | unsubscribe _ | look => 0

/-- What an observer counts towards `Peer.work` as long as it waits. -/
def Observer.weight (observer : Observer) : Nat := total Reaction.weight observer.reactions

/-- A bound on the turns still to come if nothing happens from outside. It counts the line, the calls
that wait for a slot, the goodbye requests that wait, the turns that waiting observers will ask for,
and the watcher: it looks once more after it has waited, and a connection closes once. -/
def work (peer : Peer) : Nat :=
  total Turn.weight peer.line +
    total (fun channel => channel.queue.queued) peer.table.channels +
    2 * peer.exchanges.length +
    total (fun entry => entry.2.weight) peer.observers.waiting +
    (if peer.watcher = .waiting then 1 else 0) +
    (if peer.connection.closed then 0 else 1)

end PeerLink.Peer
