import PeerLink.Node.Session

/-!
Contract: what a session keeps for a peer, and when it looks at what it waits for.

Owns: that whoever waits for a request or for a clean disconnect sees its end at the next look, and
that waiting for a request or not makes no difference to the node, nor does an action that leaves its
peer as it is.

Does not own: what there is to see.
-/

namespace PeerLink

/-- Putting a peer back as it was changes nothing. -/
theorem Node.commit_self (node : Node) {place : Nat} {peer : Peer}
    (found : node.peers[place]? = some peer) :
    node.commit place peer peer peer.line.length = node := by
  obtain ⟨inside, rfl⟩ := List.getElem?_eq_some_iff.mp found
  simp [Node.commit]

namespace Session

variable (session : Session) (place : Nat)

section Keeping

variable {session place}

theorem belongingsAt_of_unknown (unknown : ¬ place < session.belongings.length) :
    session.belongingsAt place = {} := by
  rw [belongingsAt, List.getElem?_eq_none (Nat.le_of_not_lt unknown)]
  rfl

theorem belongingsAt_keep (known : place < session.belongings.length) (belongings : Belongings) :
    (session.keep place belongings).belongingsAt place = belongings := by
  rw [belongingsAt, keep, List.getElem?_set_self known]
  rfl

end Keeping

/-! ## Looking -/

/-- Whoever waits for the end of a clean disconnect that is over sees so at the next look. -/
theorem seen_collect {peer : Peer} {kept : KeptFarewell}
    (waits : kept ∈ (session.belongingsAt place).farewells)
    (ended : kept.farewell ∈ peer.farewellsEnded) :
    { kept with seen := true } ∈
      ((session.collect place peer).2.2.belongingsAt place).farewells := by
  have known : place < session.belongings.length := by
    apply Decidable.byContradiction
    intro unknown
    rw [belongingsAt_of_unknown unknown] at waits
    cases waits
  unfold collect
  dsimp only
  rw [belongingsAt_keep known]
  refine List.mem_map.mpr ⟨kept, waits, ?_⟩
  rw [List.contains_iff_mem.mpr ended, Bool.or_true]

/-- Whoever waits for a request sees its result at the next look, if there is one by then. -/
theorem sends_collect (peer : Peer) {number : Nat} {ticket : Rpc.Ticket}
    (waits : (session.belongingsAt place).sends[number]? = some (.pending ticket)) :
    ((session.collect place peer).2.2.belongingsAt place).sends[number]? =
      some ((peer.result? ticket).elim (.pending ticket) (.resolved ticket.method)) := by
  have known : place < session.belongings.length := by
    apply Decidable.byContradiction
    intro unknown
    rw [belongingsAt_of_unknown unknown] at waits
    cases waits
  unfold collect
  dsimp only
  rw [belongingsAt_keep known, List.getElem?_map, waits]
  rfl

/-! ## Sending -/

/-- A request that is refused leaves the node as it is. -/
theorem send_of_refused {peer : Peer} {method : Rpc.Method}
    (refuses : ∀ body sink, peer.send method body sink = (none, peer))
    (found : session.node.peers[place]? = some peer) (body : Rpc.Bytes) (kept : Bool) :
    (session.send place method body kept).1 = .refused (.unknownMethod method) ∧
      (session.send place method body kept).2.node = session.node := by
  have acted : session.node.act place
      (·.send method body (.send (session.belongingsAt place).sends.length)) =
      (some none, session.node) := by
    simp only [Node.act, found, refuses, session.node.commit_self found]
  unfold send
  dsimp only
  rw [acted]
  exact ⟨rfl, rfl⟩

/-- Whether the sender keeps what it was given to wait for makes no difference to the node. -/
theorem node_send (method : Rpc.Method) (body : Rpc.Bytes) (kept other : Bool) :
    (session.send place method body kept).2.node =
      (session.send place method body other).2.node := by
  unfold send
  dsimp only
  split <;> rfl

theorem node_dropSend (number : Nat) :
    (session.dropSend place number).2.node = session.node := by
  unfold dropSend
  dsimp only
  split <;> rfl

end Session

end PeerLink
