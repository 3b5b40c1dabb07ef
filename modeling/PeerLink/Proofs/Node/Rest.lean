import PeerLink.Proofs.Node.Settle

/-!
Contract: a node at rest.

A node without a turn to take has looked at the deadlines, and none had passed: a goodbye request whose
deadline had would have joined the line. Such a node stays as it is.

Owns: which goodbye requests are due, and that none is at rest.

Does not own: that a node comes to rest.
-/

namespace PeerLink.Node

variable {node : Node}

theorem mem_due {place : Nat} {exchange : Peer.GoodbyeExchange} :
    (place, exchange) ∈ node.due ↔ ∃ peer, node.peers[place]? = some peer ∧
      exchange ∈ peer.exchanges ∧ exchange.deadline ≤ node.clock.now := by
  unfold due
  simp only [List.mem_mergeSort, List.mem_flatMap, List.mem_map, List.mem_filter, Prod.exists,
    List.mem_zipIdx_iff_getElem?, decide_eq_true_eq, Prod.mk.injEq]
  constructor
  · rintro ⟨peer, other, found, exchange, ⟨waits, passed⟩, rfl, rfl⟩
    exact ⟨peer, found, waits, passed⟩
  · rintro ⟨peer, found, waits, passed⟩
    exact ⟨peer, place, found, exchange, ⟨waits, passed⟩, rfl, rfl⟩

/-! ## Looking at the deadlines -/

theorem turns_act {α : Type} (node : Node) (place : Nat) (action : Peer → α × Peer) :
    node.turns <+: (node.act place action).2.turns := by
  unfold act
  split
  · exact List.prefix_rfl
  · exact List.prefix_append _ _

/-- A goodbye request that is woken takes a turn. -/
theorem turns_wake (node : Node) {place : Nat} {peer : Peer} (found : node.peers[place]? = some peer)
    {exchange : Peer.GoodbyeExchange} (waits : exchange ∈ peer.exchanges) :
    (node.act place fun peer => ((), peer.wakeExchange exchange.ticket)).2.turns ≠ [] := by
  obtain ⟨woken, isWoken⟩ : ∃ woken,
      peer.exchanges.find? (·.ticket == exchange.ticket) = some woken := by
    refine Option.isSome_iff_exists.mp (List.find?_isSome.mpr ⟨exchange, waits, ?_⟩)
    exact beq_self_eq_true _
  have longer : (peer.wakeExchange exchange.ticket).line.length = peer.line.length + 1 := by
    simp [Peer.wakeExchange, isWoken, Peer.enlist]
  simp [act, found, commit, longer]

theorem turns_wakeDue (overdue : node.due ≠ []) : node.wakeDue.turns ≠ [] := by
  obtain ⟨⟨place, exchange⟩, rest, entries⟩ := List.exists_cons_of_ne_nil overdue
  have isDue : (place, exchange) ∈ node.due := entries ▸ List.mem_cons_self
  obtain ⟨peer, found, waits, -⟩ := mem_due.mp isDue
  -- Whatever is woken after the first only adds to the line.
  have grows (entries : List (Nat × Peer.GoodbyeExchange)) (start : Node) :
      start.turns <+: (entries.foldl (fun node entry =>
        (node.act entry.1 fun peer => ((), peer.wakeExchange entry.2.ticket)).2) start).turns := by
    induction entries generalizing start with
    | nil => exact List.prefix_rfl
    | cons entry rest inductionHypothesis =>
        exact (turns_act _ _ _).trans (inductionHypothesis _)
  unfold wakeDue
  rw [entries, List.foldl_cons]
  intro none
  have grown := grows rest (({ node with clock := node.clock.look } : Node).act place fun peer =>
    ((), peer.wakeExchange exchange.ticket)).2
  rw [none] at grown
  exact turns_wake { node with clock := node.clock.look } found waits (List.prefix_nil.mp grown)

/-! ## Rest -/

/-- At rest the line is empty and no deadline has passed. -/
theorem advance?_eq_none_iff : node.advance? = none ↔ node.turns = [] ∧ node.due = [] := by
  have stuck : node.advance? = none ↔ node.ready.turns = [] := by
    unfold advance?
    dsimp only
    split <;> simp [*]
  rw [stuck]
  unfold ready
  constructor
  · intro empty
    split at empty
    · rename_i noTurns
      refine ⟨List.isEmpty_iff.mp noTurns, ?_⟩
      by_contra overdue
      exact turns_wakeDue overdue empty
    · rename_i someTurn
      rw [empty] at someTurn
      exact absurd rfl someTurn
  · rintro ⟨turns, due⟩
    rw [if_pos (List.isEmpty_iff.mpr turns)]
    simp [wakeDue, due, turns]

theorem ready_of_rest (rests : node.advance? = none) :
    node.ready = { node with clock := node.clock.look } := by
  obtain ⟨turns, due⟩ := advance?_eq_none_iff.mp rests
  simp [ready, turns, wakeDue, due]

/-- A settled node is at rest. -/
theorem rests_settle (orderly : node.Orderly) : node.settle.advance? = none := by
  have stuck := advance?_takeTurns orderly (Nat.le_refl node.work)
  obtain ⟨turns, due⟩ := advance?_eq_none_iff.mp stuck
  rw [settle, ready_of_rest stuck]
  exact advance?_eq_none_iff.mpr ⟨turns, due⟩

/-- A node at rest stays as it is, but for the look at the deadlines. -/
theorem settle_of_rest (rests : node.advance? = none) :
    node.settle = { node with clock := node.clock.look } := by
  have stays : takeTurns node.work node = node := by
    unfold takeTurns
    split
    · rfl
    · rw [rests]
  rw [settle, stays, ready_of_rest rests]

/-- At rest every goodbye request that waits has time left. -/
theorem lt_deadline_of_rest (rests : node.advance? = none) {place : Nat} {peer : Peer}
    (found : node.peers[place]? = some peer) {exchange : Peer.GoodbyeExchange}
    (waits : exchange ∈ peer.exchanges) : node.clock.now < exchange.deadline := by
  apply Nat.lt_of_not_le
  intro passed
  have isDue : (place, exchange) ∈ node.due := mem_due.mpr ⟨peer, found, waits, passed⟩
  rw [(advance?_eq_none_iff.mp rests).2] at isDue
  cases isDue

end PeerLink.Node
