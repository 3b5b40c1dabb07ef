import PeerLink.Proofs.Peer.Record
import PeerLink.Proofs.Peer.Work

/-!
Contract: that a peer left to itself comes to rest.

Owns: what holds of a peer at all times and makes its work a bound, and that its turns end.

Does not own: the order of turns among several peers.
-/

namespace PeerLink.Peer

/-- What makes the work of a peer a bound on its turns: its departure is sound, and no method is
served twice. -/
structure Fit (peer : Peer) : Prop where
  sound : peer.departure.Sound
  distinct : peer.table.Distinct

theorem Fit.watchful {peer : Peer} (fit : peer.Fit) (waits : peer.watcher = .waiting) :
    peer.connection.closed = false :=
  fit.sound.waiting waits

theorem fit_create (settings : Settings) (address : PeerAddress) (publicKey : String)
    (dialled : Bool) (connection : Connection) (delegates : List Rpc.Delegate) :
    (create settings address publicKey dialled connection delegates).Fit where
  sound := by
    rw [departure_create]
    exact Departure.sound_fresh _
  distinct := Rpc.Table.distinct_ofDelegates _ _

/-! ## What moves add -/

section Moves

variable {peer : Peer}

theorem grows_subscribe (peer : Peer) (observer : Observer) :
    ∃ cost, peer.Grows cost (peer.subscribe observer).2 := by
  unfold subscribe
  cases subscribed : peer.observers.subscribe? observer with
  | none => exact ⟨0, Grows.refl peer⟩
  | some entry =>
      obtain ⟨id, observers⟩ := entry
      have joined := peer.grows_observers (expected_subscribe? subscribed)
      dsimp only
      split
      · exact ⟨_, joined⟩
      · rename_i record announced
        have called := joined.trans
          (grows_callObserver record (id, observer) { peer with observers := observers })
        split <;> rename_i equal <;> rw [equal] at called <;> exact ⟨_, called⟩

theorem grows_adjust (peer : Peer) (authority : Authority) (now : Reputation.Instant)
    (adjustment : Reputation.Adjustment) :
    ∃ cost, peer.Grows cost (peer.adjust authority now adjustment) := by
  have noted := peer.grows_noteAll (authority.judge now peer.address adjustment).notes
  by_cases drops : (authority.judge now peer.address adjustment).verdict = .disconnect
  · rw [adjust_eq_disconnectCleanly drops]
    exact ⟨_, (noted.trans (grows_emit _ _)).trans (grows_disconnectCleanly _ _)⟩
  · rw [adjust_eq_noteAll drops]
    exact ⟨0, noted⟩

/-- A move other than a turn only adds to the line. -/
theorem grows_move (fit : peer.Fit) {move : Move} (other : ∀ clock, move ≠ .turn clock) :
    ∃ cost, peer.Grows cost (peer.move move) := by
  have free {later : Peer} (line : later.line = peer.line) (account : later.account = peer.account)
      (table : later.table = peer.table) (work : later.work = peer.work) : peer.Grows 0 later :=
    ⟨line ▸ List.prefix_rfl, account ▸ List.prefix_rfl, table ▸ rfl, Nat.le_of_eq work⟩
  cases move with
  | subscribe observer => exact peer.grows_subscribe observer
  | unsubscribe id => exact ⟨0, peer.grows_observers (expected_unsubscribe _ id)⟩
  | disconnectImmediately record => exact ⟨1, peer.grows_disconnectImmediately record⟩
  | disconnectCleanly reason => exact ⟨4, peer.grows_disconnectCleanly reason⟩
  | adjust authority now adjustment => exact peer.grows_adjust authority now adjustment
  | setHandler handler => exact ⟨0, free rfl rfl rfl rfl⟩
  | installGoodbye => exact ⟨0, free rfl rfl rfl rfl⟩
  | send method body sink => exact ⟨1, peer.grows_send fit.distinct method body sink⟩
  | checkIdentity =>
      show ∃ cost, peer.Grows cost peer.checkIdentity
      unfold checkIdentity
      split
      · exact ⟨0, Grows.refl peer⟩
      · exact ⟨_, peer.grows_enlist _⟩
  | lookUpAgent => exact ⟨_, peer.grows_enlist _⟩
  | askGoodbye reason timeoutMs => exact ⟨_, peer.grows_enlist _⟩
  | remoteClose => exact ⟨0, peer.grows_closeConnection fit.watchful⟩
  | prepareIdentify reply => exact ⟨0, peer.grows_connection rfl⟩
  | releaseIdentify =>
      show ∃ cost, peer.Grows cost peer.releaseIdentify.2
      unfold releaseIdentify
      split
      · exact ⟨0, Grows.refl peer⟩
      · rename_i held rest waiting
        have released : peer.Grows 0 { peer with heldIdentifies := rest } := free rfl rfl rfl rfl
        exact ⟨_, released.trans (grows_enlist _ _)⟩
  | tellCall start outcome =>
      show ∃ cost, peer.Grows cost (peer.tellOpenCall start outcome).2
      unfold tellOpenCall
      split
      · exact ⟨0, Grows.refl peer⟩
      · have told : peer.Grows 0
            { peer with openCalls := peer.openCalls.filter (·.start != start) } :=
          free rfl rfl rfl rfl
        exact ⟨_, told.trans (grows_enlist _ _)⟩
  | tellGoodbye outcome =>
      show ∃ cost, peer.Grows cost (peer.tellGoodbye outcome).2
      unfold tellGoodbye
      split
      · exact ⟨0, Grows.refl peer⟩
      · rename_i farewell rest waiting
        have told : peer.Grows 0 { peer with heldGoodbyes := rest } := free rfl rfl rfl rfl
        exact ⟨_, told.trans (grows_enlist _ _)⟩
  | cutStream method => exact ⟨0, peer.grows_note _⟩
  | hold owned => exact ⟨0, free rfl rfl rfl rfl⟩
  | wake ticket => exact ⟨0, peer.grows_wakeExchange ticket⟩
  | turn clock => exact absurd rfl (other clock)

/-- A turn goes from the front of the line; what it leads to joins at the end. -/
theorem grows_turn (fit : peer.Fit) (clock : Clock) {turn : Turn} {rest : List Turn}
    (line : peer.line = turn :: rest) :
    { peer with line := rest }.Grows (turn.weight - 1) (peer.move (.turn clock)) := by
  rw [move_turn_of_cons line]
  exact grows_take { peer with line := rest } fit.distinct fit.watchful clock turn

theorem Fit.move (fit : peer.Fit) (move : Move) : (peer.move move).Fit where
  sound := (steps_of_sound fit.sound move).sound fit.sound
  distinct := by
    by_cases isTurn : ∃ clock, move = .turn clock
    · obtain ⟨clock, rfl⟩ := isTurn
      cases line : peer.line with
      | nil =>
          rw [move_turn_of_nil line]
          exact fit.distinct
      | cons turn rest => exact (grows_turn fit clock line).distinct fit.distinct
    · obtain ⟨cost, grows⟩ := grows_move fit (not_exists.mp isTurn)
      exact grows.distinct fit.distinct

theorem Fit.play (fit : peer.Fit) (moves : List Move) : (peer.play moves).Fit := by
  induction moves generalizing peer with
  | nil => exact fit
  | cons first rest inductionHypothesis => exact inductionHypothesis (fit.move first)

end Moves

/-! ## Rest -/

theorem line_nil_of_work {peer : Peer} (idle : peer.work = 0) : peer.line = [] := by
  cases line : peer.line with
  | nil => rfl
  | cons turn rest =>
      have counts := turn.weight_pos
      unfold work at idle
      rw [line, total_cons] at idle
      omega

theorem play_turns_of_nil {peer : Peer} (idle : peer.line = []) (clock : Clock) (turns : Nat) :
    peer.play (List.replicate turns (.turn clock)) = peer := by
  induction turns with
  | zero => rfl
  | succ turns inductionHypothesis =>
      rw [List.replicate_succ, play_cons, move_turn_of_nil idle]
      exact inductionHypothesis

/-- As many turns as the peer has work empty its line, if nothing happens from outside. -/
theorem line_nil_of_turns {peer : Peer} (fit : peer.Fit) (clock : Clock) {turns : Nat}
    (enough : peer.work ≤ turns) : (peer.play (List.replicate turns (.turn clock))).line = [] := by
  induction turns generalizing peer with
  | zero => exact line_nil_of_work (Nat.le_zero.mp enough)
  | succ turns inductionHypothesis =>
      cases line : peer.line with
      | nil =>
          rw [play_turns_of_nil line]
          exact line
      | cons turn rest =>
          have advances : peer.advance? clock = some (peer.move (.turn clock)) := by
            simp [Peer.move, advance?, line]
          have decreases := work_advance fit.distinct fit.watchful advances
          rw [List.replicate_succ, play_cons]
          exact inductionHypothesis (fit.move _) (by omega)

end PeerLink.Peer
