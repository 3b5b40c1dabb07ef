import PeerLink.Proofs.Peer.LeaveTaking
import PeerLink.Proofs.Peer.Rest

/-!
Contract: what a verdict on a peer does to it.

A verdict to disconnect is reported once and followed by a clean disconnect for a remote fault. Any
other verdict of a score-keeping authority leaves the peer as it is, and nothing but an adjustment is
reported as one.

Owns: the reports of verdicts in an account, and which moves add one.

Does not own: the verdicts.
-/

namespace PeerLink.Peer

/-- The adjustment whose verdict to disconnect a note reports. -/
def Note.dropped? : Note → Option Reputation.Adjustment
  | emitted (.reputationDisconnect adjustment) => some adjustment
  | _ => none

/-- The adjustments that led to a verdict to disconnect, as they were reported. -/
def dropped (peer : Peer) : List Reputation.Adjustment := peer.account.filterMap Note.dropped?

/-- The record written for a verdict to disconnect, unless another was written before. -/
def faultRecord : DisconnectRecord := ⟨some .remoteFault, true⟩

namespace Parting

def dropped (state : Parting) : List Reputation.Adjustment := state.notes.filterMap Note.dropped?

theorem dropped?_endNotes (reason : DisconnectReason) (outcome : GoodbyeOutcome) :
    (endNotes reason outcome).filterMap Note.dropped? = [] := by
  cases outcome <;> rfl

theorem dropped?_sentNotes (state : Parting) (reason : DisconnectReason) (outcome : GoodbyeOutcome) :
    (state.sentNotes reason outcome).filterMap Note.dropped? = [] := by
  cases outcome <;> rfl

/-- Only a step that is entitled to report a verdict adds such a report. -/
theorem Step.dropped_eq {allows : Leave} {before after : Parting} (step : Step allows before after)
    (unjudged : ∀ adjustment, ¬ allows.drops adjustment) : after.dropped = before.dropped := by
  cases step with
  | drops adjustment warranted => exact absurd warranted (unjudged adjustment)
  | answers farewell rest invited handler outcome sent =>
      simp only [dropped, conclude, leave, ask, List.filterMap_append, dropped?_endNotes]
      simp [Note.dropped?]
  | _ =>
      simp [dropped, leave, request, conclude, ask, await, answer, report, Note.dropped?,
        dropped?_endNotes, dropped?_sentNotes]

theorem Steps.dropped_eq {allows : Leave} {before after : Parting}
    (steps : Steps allows before after) (unjudged : ∀ adjustment, ¬ allows.drops adjustment) :
    after.dropped = before.dropped := by
  induction steps with
  | refl => rfl
  | tail _ step inductionHypothesis => exact (step.dropped_eq unjudged).trans inductionHypothesis

end Parting

theorem dropped_create (settings : Settings) (address : PeerAddress) (publicKey : String)
    (dialled : Bool) (connection : Connection) (delegates : List Rpc.Delegate) :
    (create settings address publicKey dialled connection delegates).dropped = [] := by
  simp [dropped, create, List.filterMap_map, Function.comp_def, Note.dropped?]

section Moves

variable (peer : Peer)

theorem dropped_parting : peer.parting.dropped = peer.dropped := by
  refine filterMap_kind Note.isParting (fun note adjustment reports => ?_) peer.account
  unfold Note.dropped? at reports
  split at reports
  · rfl
  · cases reports

/-- No move but an adjustment adds the report of a verdict. -/
theorem dropped_move {move : Move}
    (other : ∀ authority now adjustment, move ≠ .adjust authority now adjustment) :
    (peer.move move).dropped = peer.dropped := by
  rw [← dropped_parting, ← dropped_parting]
  refine (peer.parted_move move).dropped_eq ?_
  rintro adjustment ⟨authority, now, isAdjust, -⟩
  exact other authority now adjustment isAdjust

section Adjustments

variable {authority : Authority} {now : Reputation.Instant} {adjustment : Reputation.Adjustment}

/-- A verdict to disconnect is reported once, and whoever was not leaving leaves for a remote fault. -/
theorem adjust_of_dropped
    (drops : (authority.judge now peer.address adjustment).verdict = .disconnect) :
    (peer.adjust authority now adjustment).dropped = peer.dropped ++ [adjustment] ∧
      (peer.adjust authority now adjustment).link.record =
        some (peer.link.record.getD faultRecord) := by
  have parting := peer.parting_of_dropped drops
  constructor
  · rw [← dropped_parting, parting, ← dropped_parting]
    simp [Parting.dropped, Parting.request, Parting.leave, Note.dropped?]
  · exact congrArg Parting.record parting

/-- A score-keeping authority has nothing to say of a peer that it does not drop. -/
theorem adjust_of_kept {ledger : Reputation.Ledger}
    (keeps : ((Authority.scored ledger).judge now peer.address adjustment).verdict ≠ .disconnect) :
    peer.adjust (.scored ledger) now adjustment = peer := by
  have silent : ((Authority.scored ledger).judge now peer.address adjustment).notes = [] := by
    have unlogged : (ledger.adjust now now peer.address adjustment).log = [] := if_neg keeps
    simp [Authority.judge, unlogged]
  rw [adjust_eq_noteAll keeps, silent, noteAll, List.append_nil]

end Adjustments

end Moves

end PeerLink.Peer
