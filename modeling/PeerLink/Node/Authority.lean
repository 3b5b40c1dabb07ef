import PeerLink.Peer.Note
import PeerLink.Reputation.Ledger

/-!
Contract: who judges the peers of a node.

Owns: the two kinds of authority and what each one answers and notes.

Does not own: what a verdict does to a peer.
-/

namespace PeerLink

inductive Authority where
  /-- Its verdicts are laid down; when none is left it keeps every peer. -/
  | scripted (verdicts : List Bool)
  | scored (ledger : Reputation.Ledger)
deriving Repr

structure Judgement where
  verdict : Reputation.Verdict
  notes : List Peer.Note
  authority : Authority
deriving Repr

def Authority.judge (authority : Authority) (now : Reputation.Instant) (peer : PeerAddress)
    (adjustment : Reputation.Adjustment) : Judgement :=
  match authority with
  | .scripted verdicts =>
      { verdict := if verdicts.headD false then .disconnect else .keep
        notes := [.judged adjustment]
        authority := .scripted verdicts.tail }
  | .scored ledger =>
      let adjusted := ledger.adjust now now peer adjustment
      { verdict := adjusted.verdict
        notes := adjusted.log.map .logged
        authority := .scored adjusted.ledger }

end PeerLink
