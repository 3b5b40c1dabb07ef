import PeerLink.Proofs.Peer.Recording
import PeerLink.Proofs.Peer.Rest

/-!
Contract: the agreement of the record, the report of the close, and what observers are told.

Owns: what the invariant of the departure says about the peer, and that it holds in every state that
a peer can reach.

Does not own: the invariant, and which moves record.
-/

namespace PeerLink.Peer

theorem countP_isClose_filter (account : List Note) :
    (account.filter Note.isDeparture).countP Note.isClose = account.countP Note.isClose := by
  rw [List.countP_filter]
  refine List.countP_congr fun note _ => ?_
  simp only [Bool.and_eq_true, and_iff_left_iff_imp]
  exact Note.isDeparture_of_isClose

/-- What the record, the account and the observers of a peer have in common. -/
structure Agrees (peer : Peer) : Prop where
  connected : peer.link.connected = true ↔ peer.link.record = none
  recorded : peer.link.record = peer.account.findSome? Note.recorded?
  closedOnce : peer.account.countP Note.isClose ≤ 1
  told : ∀ note ∈ peer.account, ∀ record, note.told? = some record →
    peer.connection.closed = true ∧ peer.link.record = some record
  settled : peer.line = [] → peer.connection.closed = true →
    peer.account.countP Note.isClose = 1 ∧ peer.observers.waiting = []

theorem agrees_of_sound {peer : Peer} (sound : peer.departure.Sound) : peer.Agrees where
  connected := by
    rw [show peer.link.connected = peer.link.record.isNone from sound.connected]
    exact Option.isNone_iff_eq_none
  recorded := by
    have read := filterMap_kind Note.isDeparture (fun _ _ => Note.isDeparture_of_recorded?)
      peer.account
    rw [← List.head?_filterMap, ← read, List.head?_filterMap]
    exact sound.recorded
  closedOnce := by
    rw [← countP_isClose_filter, show (peer.account.filter Note.isDeparture).countP _ = _ from
      sound.reported]
    split <;> decide
  told := by
    intro note member record told
    have concerns := List.mem_filter.mpr ⟨member, Note.isDeparture_of_told? told⟩
    obtain ⟨ended, recorded⟩ := sound.told note concerns record told
    exact ⟨(sound.ended ended).1, recorded⟩
  settled := by
    intro line closed
    -- The watcher is not in the line, which is empty, and does not wait, as the connection closed.
    have ended : peer.watcher = .ended := by
      cases watcher : peer.watcher with
      | inLine =>
          have watching := sound.watching
          rw [show peer.departure.watcher = .inLine from watcher,
            show peer.departure.turns = [] by simp [departure, line]] at watching
          cases watching
      | waiting => exact absurd (sound.waiting watcher) (by simp [departure, closed])
      | ended => rfl
    constructor
    · rw [← countP_isClose_filter, show (peer.account.filter Note.isDeparture).countP _ = _ from
        sound.reported]
      exact if_pos ended
    · have announced := sound.announced
      rw [if_pos (show peer.departure.watcher = .ended from ended)] at announced
      obtain ⟨record, recorded⟩ := Option.ne_none_iff_exists'.mp (sound.ended ended).2
      rw [recorded] at announced
      unfold Registry.announced? at announced
      unfold Registry.waiting
      split at announced
      · cases announced
      · rename_i phase
        rw [show peer.observers.phase = _ from phase]

/-- While the connection is open, no move reports its close or calls an observer. -/
theorem silent_while_open {peer : Peer} (sound : peer.departure.Sound)
    (isOpen : peer.connection.closed = false) (move : Move) :
    ∀ note ∈ (peer.move move).account, note.told? = none := by
  intro note member
  cases told : note.told? with
  | none => rfl
  | some record =>
      have concerns := List.mem_filter.mpr ⟨member, Note.isDeparture_of_told? told⟩
      have closed : peer.connection.closed = true := by
        rcases (steps_of_sound sound move).allowed concerns with earlier | allowed
        · exact (sound.ended (sound.told note earlier record told).1).1
        · unfold Note.told? at told
          split at told
          · exact allowed
          · exact allowed
          · cases told
      rw [isOpen] at closed
      cases closed

/-- In every state that a peer reaches, whatever is asked of it and in whatever order its turns are
taken, the record, the report of the close and what observers are told agree; what is recorded is
what the first recording event of the history says, and stays; each recording event is reported by
the move that makes it; and the peer comes to rest as soon as it is left to itself. -/
theorem departure_agrees (settings : Settings) (address : PeerAddress) (publicKey : String)
    (dialled : Bool) (connection : Connection) (delegates : List Rpc.Delegate)
    (moves : List Move) :
    let start := create settings address publicKey dialled connection delegates
    let peer := start.play moves
    peer.Agrees ∧
      peer.link.record = (start.recordingEvents moves).head?.map RecordingEvent.record ∧
      (∀ move event, peer.recordingEvent? move = some event →
        Recorded event peer (peer.move move)) ∧
      (∀ later record, peer.link.record = some record →
        (peer.play later).link.record = some record) ∧
      (∀ move, peer.connection.closed = false →
        ∀ note ∈ (peer.move move).account, note.told? = none) ∧
      ∀ clock, (peer.play (List.replicate peer.work (.turn clock))).line = [] := by
  intro start peer
  have fit : peer.Fit :=
    (fit_create settings address publicKey dialled connection delegates).play moves
  refine ⟨agrees_of_sound fit.sound, ?_, fun move event => recorded_move peer, ?_, ?_, ?_⟩
  · exact record_play (departure_create _ _ _ _ _ _) (books_create _ _ _ _ _ _) moves
  · intro later record written
    exact (extends_play fit.sound later).record record written
  · intro move isOpen
    exact silent_while_open fit.sound isOpen move
  · intro clock
    exact line_nil_of_turns fit clock (Nat.le_refl _)

end PeerLink.Peer
