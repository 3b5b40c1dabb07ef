import PeerLink.Proofs.Node.Moves
import PeerLink.Proofs.Peer.Agreement

/-!
Contract: that a node settles.

Every turn uses up work, and looking at the deadlines makes none. So the number of turns that
settling allows for is enough: afterwards nobody has a turn to take.

Owns: the work of a node, the end of settling, and what it means for the peers of a session.

Does not own: what the peers do until then.
-/

namespace PeerLink

namespace Node

theorem work_commit {node : Node} {place : Nat} {before : Peer} (after : Peer) (kept : Nat)
    (found : node.peers[place]? = some before) :
    (node.commit place before after kept).work + before.work = node.work + after.work :=
  total_set Peer.work after found

/-- An exchange that waits counts as much as its turn. -/
theorem work_wake (node : Node) (place : Nat) (ticket : Rpc.Ticket) :
    (node.act place fun peer => ((), peer.wakeExchange ticket)).2.work ≤ node.work := by
  unfold act
  split
  · exact Nat.le_refl _
  · rename_i peer found
    have committed := work_commit (peer.wakeExchange ticket) peer.line.length found
    have woken := (peer.grows_wakeExchange ticket).work
    dsimp only
    omega

theorem work_wakeDue (node : Node) : node.wakeDue.work ≤ node.work := by
  have wakes (entries : List (Nat × Peer.GoodbyeExchange)) (start : Node) :
      (entries.foldl (fun node entry =>
        (node.act entry.1 fun peer => ((), peer.wakeExchange entry.2.ticket)).2) start).work ≤
      start.work := by
    induction entries generalizing start with
    | nil => exact Nat.le_refl _
    | cons entry rest inductionHypothesis =>
        exact Nat.le_trans (inductionHypothesis _) (work_wake start entry.1 entry.2.ticket)
  exact wakes _ _

theorem work_ready (node : Node) : node.ready.work ≤ node.work := by
  unfold ready
  split
  · exact node.work_wakeDue
  · exact Nat.le_refl _

theorem work_takeTurn {node : Node} (orderly : node.Orderly) {place : Nat} {rest : List Nat}
    (turns : node.turns = place :: rest) :
    (({ node with turns := rest } : Node).takeTurn place).work < node.work := by
  obtain ⟨peer, found, taken⟩ := orderly.exists_turn turns
  have fit := orderly.fit peer (List.mem_of_getElem? found)
  have decreases := Peer.work_advance fit.distinct fit.watchful taken
  have replaced := total_set Peer.work (peer.move (.turn node.clock)) found
  rw [takeTurn_eq found taken]
  show total Peer.work (node.peers.set place (peer.move (.turn node.clock))) <
    total Peer.work node.peers
  omega

theorem work_advance? {node later : Node} (orderly : node.Orderly)
    (advances : node.advance? = some later) : later.work < node.work := by
  unfold advance? at advances
  dsimp only at advances
  split at advances
  · cases advances
  · rename_i place rest turns
    obtain rfl := Option.some.inj advances
    have ready : Steps False node node.ready := node.steps_ready
    exact Nat.lt_of_lt_of_le (work_takeTurn (ready.orderly orderly) turns) node.work_ready

theorem advance?_takeTurns {node : Node} (orderly : node.Orderly) {turns : Nat}
    (enough : node.work ≤ turns) : (takeTurns turns node).advance? = none := by
  induction turns generalizing node with
  | zero =>
      unfold takeTurns
      cases advances : node.advance? with
      | none => rfl
      | some later =>
          have decreases := work_advance? orderly advances
          omega
  | succ turns inductionHypothesis =>
      unfold takeTurns
      split
      · assumption
      · rename_i later advances
        have decreases := work_advance? orderly advances
        have advanced : Steps False node later := steps_advance? orderly advances
        exact inductionHypothesis (advanced.orderly orderly) (by omega)

/-- A settled node has no turn to take. -/
theorem turns_settle {node : Node} (orderly : node.Orderly) : node.settle.turns = [] := by
  have stuck := advance?_takeTurns orderly (Nat.le_refl node.work)
  unfold advance? at stuck
  dsimp only at stuck
  split at stuck
  · assumption
  · cases stuck

theorem Orderly.line_nil {node : Node} (orderly : node.Orderly) (turns : node.turns = [])
    {place : Nat} {peer : Peer} (found : node.peers[place]? = some peer) : peer.line = [] := by
  have counted := orderly.counted place peer found
  rw [turns, List.count_nil] at counted
  exact List.length_eq_zero_iff.mp counted.symm

theorem Orderly.addPeer {node : Node} (orderly : node.Orderly) {peer : Peer} (fit : peer.Fit) :
    (node.addPeer peer).Orderly where
  known := by
    intro place member
    rw [Node.addPeer, List.length_append, List.length_singleton]
    rcases List.mem_append.mp member with earlier | added
    · exact Nat.lt_succ_of_lt (orderly.known place earlier)
    · rw [List.eq_of_mem_replicate added]
      exact Nat.lt_succ_self _
  counted := by
    intro place other found
    rw [Node.addPeer, List.count_append, List.count_replicate]
    rcases Nat.lt_trichotomy place node.peers.length with earlier | rfl | beyond
    · rw [Node.addPeer, List.getElem?_append_left earlier] at found
      simp only [orderly.counted place other found, beq_iff_eq, Nat.ne_of_gt earlier, ↓reduceIte,
        Nat.add_zero]
    · rw [Node.addPeer, List.getElem?_append_right (Nat.le_refl _), Nat.sub_self] at found
      obtain rfl := Option.some.inj found
      have fresh : node.turns.count node.peers.length = 0 :=
        List.count_eq_zero.mpr fun member => Nat.lt_irrefl _ (orderly.known _ member)
      simp only [fresh, beq_self_eq_true, ↓reduceIte, Nat.zero_add]
    · have none : (node.peers ++ [peer])[place]? = none := by
        rw [List.getElem?_eq_none_iff, List.length_append, List.length_singleton]
        exact beyond
      rw [Node.addPeer, none] at found
      cases found
  fit := by
    intro other member
    rcases List.mem_append.mp member with earlier | added
    · exact orderly.fit other earlier
    · rw [List.mem_singleton.mp added]
      exact fit

end Node

namespace Session

variable {session : Session}

/-- A step that settles the node leaves no peer with a turn to take. -/
theorem line_nil_of_settles (orderly : session.node.Orderly) {step : NodeStep} {peer : Peer}
    (isPeer : session.node.peers[step.place]? = some peer) (settles : step.settles = true)
    {place : Nat} {later : Peer}
    (found : (session.step step).2.node.peers[place]? = some later) : later.line = [] := by
  have performed : Node.Steps True session.node
      (session.perform step.place peer step.action).2.node :=
    session.steps_perform step.place peer step.action fun _ _ => trivial
  have reached := performed.orderly orderly
  have settled : (((session.perform step.place peer step.action).2).goOn step).node.turns = [] := by
    unfold goOn
    rw [settles]
    split
    · exact Node.turns_settle ⟨reached.known, reached.counted, reached.fit⟩
    · exact Node.turns_settle reached
    · contradiction
  rw [session.node_step isPeer] at found
  have goesOn : Node.Steps False (session.perform step.place peer step.action).2.node
      (((session.perform step.place peer step.action).2).goOn step).node :=
    steps_goOn reached step
  exact (goesOn.orderly reached).line_nil settled found

/-- At the end of every session the record of every peer agrees with its account and with what its
observers were told. -/
theorem agrees_of_steps (orderly : session.node.Orderly) (steps : List NodeStep) :
    ∀ peer ∈ (session.steps steps).2.node.peers, peer.Agrees := by
  intro peer member
  exact Peer.agrees_of_sound (((steps_steps orderly steps).orderly orderly).fit peer member).sound

end Session

end PeerLink
