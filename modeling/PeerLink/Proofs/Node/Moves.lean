import Mathlib.Logic.Relation
import PeerLink.Proofs.Node.Belongings
import PeerLink.Proofs.Peer.Rest

/-!
Contract: a node and a session as histories of their peers.

Whatever is done with a node is a sequence of `Node.Step`s, and each of them is one move of one peer
at most. So what holds along every history of a peer holds for the peers of every node. Only what is done
for an adjustment has a step that puts one before the authority. The line of a node holds the place of a
peer as often as that peer's own line is long.

Owns: steps of a node, the invariant of its line, and the proof that sessions consist of steps.

Does not own: that a node settles.
-/

namespace PeerLink

/-- Whether a move comes from outside and is no adjustment. -/
def Peer.Move.isPlain : Peer.Move → Bool
  | .turn _ | .adjust _ _ _ => false
  | _ => true

namespace Node

/-- A way in which a node changes. Whether an adjustment may be put before the authority is up to what
the step is taken for. -/
inductive Step (judging : Prop) : Node → Node → Prop where
  /-- A move from outside. The turns it adds join the line. -/
  | acts (node : Node) (place : Nat) (peer : Peer) (move : Peer.Move)
      (found : node.peers[place]? = some peer) (plain : move.isPlain = true) :
      Step judging node (node.commit place peer (peer.move move) peer.line.length)
  /-- The turn of the peer that comes up next. -/
  | takes (node : Node) (place : Nat) (rest : List Nat) (peer : Peer)
      (turns : node.turns = place :: rest) (found : node.peers[place]? = some peer) :
      Step judging node
        (({ node with turns := rest, clock := node.clock.tick } : Node).commit place peer
          (peer.move (.turn node.clock)) (peer.line.length - 1))
  | looks (node : Node) (clock : Peer.Clock) : Step judging node { node with clock := clock }
  /-- An adjustment is put before the authority, and its verdict is followed. -/
  | judges (node : Node) (place : Nat) (peer : Peer) (adjustment : Reputation.Adjustment)
      (found : node.peers[place]? = some peer) (warranted : judging) :
      Step judging node
        (({ node with authority := (node.authority.judge node.banClock peer.address
          adjustment).authority } : Node).commit place peer
            (peer.move (.adjust node.authority node.banClock adjustment)) peer.line.length)

abbrev Steps (judging : Prop) : Node → Node → Prop := Relation.ReflTransGen (Step judging)

variable {judging : Prop}

/-! ## The line of a node -/

structure Orderly (node : Node) : Prop where
  known : ∀ place ∈ node.turns, place < node.peers.length
  counted : ∀ place peer, node.peers[place]? = some peer →
    node.turns.count place = peer.line.length
  fit : ∀ peer ∈ node.peers, peer.Fit

/-- A node without peers has no turn to take. -/
theorem orderly_of_empty {node : Node} (peers : node.peers = []) (turns : node.turns = []) :
    node.Orderly where
  known := by simp [turns]
  counted := by simp [peers]
  fit := by simp [peers]

/-- A peer changed, and the line counts its turns if it counted all but the new ones before. -/
theorem orderly_commit (node : Node) {place kept : Nat} {before after : Peer}
    (found : node.peers[place]? = some before)
    (known : ∀ place ∈ node.turns, place < node.peers.length)
    (here : node.turns.count place = kept) (longer : kept ≤ after.line.length)
    (elsewhere : ∀ other peer, other ≠ place → node.peers[other]? = some peer →
      node.turns.count other = peer.line.length)
    (fits : ∀ peer ∈ node.peers, peer.Fit) (fit : after.Fit) :
    (node.commit place before after kept).Orderly where
  known := by
    have bound := (List.getElem?_eq_some_iff.mp found).1
    intro other member
    rw [commit, List.length_set]
    rcases List.mem_append.mp member with earlier | added
    · exact known other earlier
    · rw [List.eq_of_mem_replicate added]
      exact bound
  counted := by
    have bound := (List.getElem?_eq_some_iff.mp found).1
    intro other peer there
    rw [commit, List.count_append, List.count_replicate]
    by_cases same : place = other
    · subst same
      rw [commit, List.getElem?_set_self bound] at there
      obtain rfl := Option.some.inj there
      simp only [here, beq_self_eq_true, ↓reduceIte]
      omega
    · rw [commit, List.getElem?_set_ne same] at there
      simp only [elsewhere other peer (Ne.symm same) there, beq_iff_eq, same, ↓reduceIte,
        Nat.add_zero]
  fit := by
    intro peer member
    rcases List.mem_or_eq_of_mem_set member with earlier | rfl
    · exact fits peer earlier
    · exact fit

/-- The line counts the turns that a move from outside adds. -/
theorem Orderly.commit_move {node : Node} (orderly : node.Orderly) {place : Nat} {peer : Peer}
    (found : node.peers[place]? = some peer) {move : Peer.Move}
    (other : ∀ clock, move ≠ .turn clock) :
    (node.commit place peer (peer.move move) peer.line.length).Orderly := by
  have fit := orderly.fit peer (List.mem_of_getElem? found)
  obtain ⟨cost, grows⟩ := Peer.grows_move fit other
  exact orderly_commit _ found orderly.known (orderly.counted place peer found)
    grows.line.length_le (fun other peer _ there => orderly.counted other peer there)
    orderly.fit (fit.move move)

theorem Step.orderly {before after : Node} (step : Step judging before after)
    (orderly : before.Orderly) : after.Orderly := by
  cases step with
  | acts place peer move found plain =>
      refine orderly.commit_move found fun clock isTurn => ?_
      rw [isTurn] at plain
      cases plain
  | takes place rest peer turns found =>
      have fit := orderly.fit peer (List.mem_of_getElem? found)
      have counted := orderly.counted place peer found
      rw [turns, List.count_cons_self] at counted
      obtain ⟨turn, later, line⟩ := List.exists_cons_of_length_pos (l := peer.line) (by omega)
      have grows := Peer.grows_turn fit before.clock line
      have known : ∀ place ∈ rest, place < before.peers.length := by
        intro other member
        exact orderly.known other (turns ▸ List.mem_cons_of_mem _ member)
      refine orderly_commit { before with turns := rest, clock := before.clock.tick } found known
        ?_ ?_ ?_ orderly.fit (fit.move _)
      · show rest.count place = peer.line.length - 1
        omega
      · have longer := grows.line.length_le
        rw [line, List.length_cons]
        exact longer
      · intro other peer different there
        have elsewhere := orderly.counted other peer there
        rw [turns, List.count_cons_of_ne (Ne.symm different)] at elsewhere
        exact elsewhere
  | looks clock => exact ⟨orderly.known, orderly.counted, orderly.fit⟩
  | judges place peer adjustment found warranted =>
      have judged : ({ before with authority := (before.authority.judge before.banClock peer.address
          adjustment).authority } : Node).Orderly :=
        ⟨orderly.known, orderly.counted, orderly.fit⟩
      exact judged.commit_move found nofun

theorem Steps.orderly {before after : Node} (steps : Steps judging before after)
    (orderly : before.Orderly) : after.Orderly := by
  induction steps with
  | refl => exact orderly
  | tail _ step inductionHypothesis => exact step.orderly inductionHypothesis

/-! ## The peers of a node -/

theorem peer_of_set {peers : List Peer} {place other : Nat} {peer later : Peer} {move : Peer.Move}
    (there : peers[other]? = some peer)
    (found : (peers.set other (peer.move move))[place]? = some later) :
    ∃ earlier moves, peers[place]? = some earlier ∧ later = earlier.play moves := by
  by_cases same : other = place
  · subst same
    rw [List.getElem?_set_self (List.getElem?_eq_some_iff.mp there).1] at found
    exact ⟨peer, [move], there, (Option.some.inj found).symm⟩
  · rw [List.getElem?_set_ne same] at found
    exact ⟨later, [], found, rfl⟩

theorem Step.peer {before after : Node} (step : Step judging before after) {place : Nat} {later : Peer}
    (found : after.peers[place]? = some later) :
    ∃ earlier moves, before.peers[place]? = some earlier ∧ later = earlier.play moves := by
  cases step with
  | acts other peer move there plain => exact peer_of_set there found
  | takes other rest peer turns there =>
      exact peer_of_set there found
  | looks clock => exact ⟨later, [], found, rfl⟩
  | judges other peer adjustment there warranted => exact peer_of_set there found

/-- Every peer of the later node is a peer of the earlier one after a history. -/
theorem Steps.peer {before after : Node} (steps : Steps judging before after) {place : Nat} {later : Peer}
    (found : after.peers[place]? = some later) :
    ∃ earlier moves, before.peers[place]? = some earlier ∧ later = earlier.play moves := by
  induction steps generalizing later with
  | refl => exact ⟨later, [], found, rfl⟩
  | tail _ step inductionHypothesis =>
      obtain ⟨middle, last, between, rfl⟩ := step.peer found
      obtain ⟨earlier, moves, start, rfl⟩ := inductionHypothesis between
      exact ⟨earlier, moves ++ last, start, (Peer.play_append earlier moves last).symm⟩

/-! ## What consists of steps -/

/-- An action on a peer that is a move from outside, and no adjustment. -/
def IsMove {α : Type} (action : Peer → α × Peer) (peer : Peer) : Prop :=
  ∃ move : Peer.Move, move.isPlain = true ∧ (action peer).2 = peer.move move

theorem steps_act {α : Type} (node : Node) (place : Nat) (action : Peer → α × Peer)
    (isMove : ∀ peer, node.peers[place]? = some peer → IsMove action peer) :
    Steps judging node (node.act place action).2 := by
  unfold act
  split
  · exact Relation.ReflTransGen.refl
  · rename_i peer found
    obtain ⟨move, plain, equal⟩ := isMove peer found
    dsimp only
    rw [equal]
    exact Relation.ReflTransGen.single (.acts node place peer move found plain)

theorem steps_wakeDue (node : Node) : Steps judging node node.wakeDue := by
  have wakes (entries : List (Nat × Peer.GoodbyeExchange)) (start : Node) :
      Steps judging start (entries.foldl (fun node entry =>
        (node.act entry.1 fun peer => ((), peer.wakeExchange entry.2.ticket)).2) start) := by
    induction entries generalizing start with
    | nil => exact Relation.ReflTransGen.refl
    | cons entry rest inductionHypothesis =>
        refine Relation.ReflTransGen.trans (steps_act _ _ _ fun peer _ => ?_) (inductionHypothesis _)
        exact ⟨.wake entry.2.ticket, rfl, rfl⟩
  exact (Relation.ReflTransGen.single (.looks node node.clock.look)).trans (wakes _ _)

theorem steps_ready (node : Node) : Steps judging node node.ready := by
  unfold ready
  split
  · exact node.steps_wakeDue
  · exact Relation.ReflTransGen.refl

/-- In an orderly node the peer that comes up has a turn to take. -/
theorem Orderly.exists_turn {node : Node} (orderly : node.Orderly) {place : Nat} {rest : List Nat}
    (turns : node.turns = place :: rest) :
    ∃ peer, node.peers[place]? = some peer ∧
      peer.advance? node.clock = some (peer.move (.turn node.clock)) := by
  have known := orderly.known place (turns ▸ List.mem_cons_self)
  have found := List.getElem?_eq_getElem known
  have counted := orderly.counted place _ found
  rw [turns, List.count_cons_self] at counted
  refine ⟨node.peers[place], found, ?_⟩
  obtain ⟨turn, later, line⟩ := List.exists_cons_of_length_pos (l := node.peers[place].line)
    (by omega)
  simp [Peer.move, Peer.advance?, line]

theorem takeTurn_eq {node : Node} {place : Nat} {rest : List Nat} {peer later : Peer}
    (found : node.peers[place]? = some peer) (advances : peer.advance? node.clock = some later) :
    ({ node with turns := rest } : Node).takeTurn place =
      ({ node with turns := rest, clock := node.clock.tick } : Node).commit place peer later
        (peer.line.length - 1) := by
  unfold takeTurn
  simp only [found, advances]

theorem steps_takeTurn {node : Node} (orderly : node.Orderly) {place : Nat} {rest : List Nat}
    (turns : node.turns = place :: rest) :
    Steps judging node (({ node with turns := rest } : Node).takeTurn place) := by
  obtain ⟨peer, found, advances⟩ := orderly.exists_turn turns
  rw [takeTurn_eq found advances]
  exact Relation.ReflTransGen.single (.takes node place rest peer turns found)

theorem steps_advance? {node later : Node} (orderly : node.Orderly)
    (advances : node.advance? = some later) : Steps judging node later := by
  have ready : Steps judging node node.ready := node.steps_ready
  unfold advance? at advances
  dsimp only at advances
  split at advances
  · cases advances
  · rename_i place rest turns
    obtain rfl := Option.some.inj advances
    exact ready.trans (steps_takeTurn (ready.orderly orderly) turns)

theorem steps_takeTurns {node : Node} (orderly : node.Orderly) (turns : Nat) :
    Steps judging node (takeTurns turns node) := by
  induction turns generalizing node with
  | zero => exact Relation.ReflTransGen.refl
  | succ turns inductionHypothesis =>
      unfold takeTurns
      split
      · exact Relation.ReflTransGen.refl
      · rename_i later advances
        have advanced : Steps judging node later := steps_advance? orderly advances
        exact advanced.trans (inductionHypothesis (advanced.orderly orderly))

theorem steps_settle {node : Node} (orderly : node.Orderly) : Steps judging node node.settle :=
  (steps_takeTurns orderly _).trans (steps_ready _)

theorem steps_elapse {node : Node} (orderly : node.Orderly) (milliseconds : Nat) :
    Steps judging node (node.elapse milliseconds) := by
  have passes : Step judging node { node with clock := node.clock.elapse milliseconds } := .looks _ _
  exact (Relation.ReflTransGen.single passes).trans (steps_settle (passes.orderly orderly))

/-- An adjustment of a peer is a move of that peer, by the verdict of the authority of the node. -/
theorem adjust_eq (node : Node) {place : Nat} {peer : Peer}
    (found : node.peers[place]? = some peer) (adjustment : Reputation.Adjustment) :
    node.adjust place adjustment =
      ((node.authority.judge node.banClock peer.address adjustment).verdict,
        ({ node with authority := (node.authority.judge node.banClock peer.address
          adjustment).authority } : Node).commit place peer
            (peer.move (.adjust node.authority node.banClock adjustment)) peer.line.length) := by
  simp only [adjust, act, found]
  rfl

theorem steps_adjust (node : Node) (place : Nat) (adjustment : Reputation.Adjustment)
    (warranted : judging) : Steps judging node (node.adjust place adjustment).2 := by
  cases found : node.peers[place]? with
  | none =>
      simp only [adjust, found]
      exact Relation.ReflTransGen.refl
  | some peer =>
      rw [node.adjust_eq found]
      exact Relation.ReflTransGen.single (.judges node place peer adjustment found warranted)

end Node

/-! ## Sessions -/

namespace Session

open Node (IsMove Steps)

variable {judging : Prop}

theorem steps_act (session : Session) (place : Nat) (action : Peer → NodeAnswer × Peer)
    (isMove : ∀ peer, IsMove action peer) :
    Steps judging session.node (session.act place action).2.node :=
  session.node.steps_act place action fun peer _ => isMove peer

theorem steps_run (session : Session) (place : Nat) (action : Peer → Peer)
    (isMove : ∀ peer, ∃ move : Peer.Move, move.isPlain = true ∧
      action peer = peer.move move) :
    Steps judging session.node (session.run place action).2.node :=
  session.steps_act place _ isMove

theorem steps_ask (session : Session) (place : Nat) (action : Peer → Bool × Peer)
    (isMove : ∀ peer, IsMove action peer) :
    Steps judging session.node (session.ask place action).2.node :=
  session.steps_act place _ isMove

theorem steps_send (session : Session) (place : Nat) (method : Rpc.Method) (body : Rpc.Bytes)
    (kept : Bool) : Steps judging session.node (session.send place method body kept).2.node := by
  have sent : Steps judging session.node (session.node.act place
      (·.send method body (.send (session.belongingsAt place).sends.length))).2 :=
    session.node.steps_act place _ fun peer _ => ⟨.send method body _, rfl, rfl⟩
  unfold send
  dsimp only
  split <;> exact sent

theorem steps_disconnectCleanly (session : Session) (place : Nat) (reason : DisconnectReason)
    (kept : Bool) : Steps judging session.node (session.disconnectCleanly place reason kept).2.node := by
  have asked : Steps judging session.node (session.node.act place (·.disconnectCleanly reason)).2 :=
    session.node.steps_act place _ fun peer _ => ⟨.disconnectCleanly reason, rfl, rfl⟩
  unfold disconnectCleanly
  dsimp only
  split <;> exact asked

theorem steps_performOnHandle (session : Session) (place : Nat) (peer : Peer)
    (action : HandleAction) (warranted : ∀ adjustment, action = .adjust adjustment → judging) :
    Steps judging session.node (session.performOnHandle place peer action).2.node := by
  cases action with
  | profile => exact Relation.ReflTransGen.refl
  | subscribe observer =>
      refine session.steps_act place _ fun peer => ⟨.subscribe observer, rfl, ?_⟩
      dsimp only
      split <;> rename_i equal <;> rw [Peer.move, equal]
  | unsubscribe id => exact session.steps_ask place _ fun peer => ⟨.unsubscribe id, rfl, rfl⟩
  | disconnectImmediately record =>
      exact session.steps_run place _ fun peer => ⟨.disconnectImmediately record, rfl, rfl⟩
  | disconnectCleanly reason kept => exact session.steps_disconnectCleanly place reason kept
  | setHandler handler =>
      exact session.steps_run place _ fun peer => ⟨.setHandler handler, rfl, rfl⟩
  | installGoodbye => exact session.steps_run place _ fun peer => ⟨.installGoodbye, rfl, rfl⟩
  | send method body kept => exact session.steps_send place method body kept
  | adjust adjustment => exact session.node.steps_adjust place adjustment (warranted adjustment rfl)
  | checkIdentity => exact session.steps_run place _ fun peer => ⟨.checkIdentity, rfl, rfl⟩

theorem steps_cutStream (session : Session) (place send : Nat) :
    Steps judging session.node (session.cutStream place send).2.node := by
  unfold cutStream
  split
  · rename_i method _
    exact session.steps_act place _ fun peer => ⟨.cutStream method, rfl, rfl⟩
  · exact Relation.ReflTransGen.refl

theorem steps_perform (session : Session) (place : Nat) (peer : Peer) (action : NodeAction)
    (warranted : ∀ adjustment, action = .handle (.adjust adjustment) → judging) :
    Steps judging session.node (session.perform place peer action).2.node := by
  cases action with
  | handle action =>
      show Steps judging session.node (if peer.owned then session.performOnHandle place peer action
        else (.noHandle, session)).2.node
      split
      · exact session.steps_performOnHandle place peer action fun adjustment adjusts =>
          warranted adjustment (congrArg NodeAction.handle adjusts)
      · exact Relation.ReflTransGen.refl
  | wait => exact Relation.ReflTransGen.refl
  | elapse milliseconds => exact Relation.ReflTransGen.refl
  | remoteClose => exact session.steps_run place _ fun peer => ⟨.remoteClose, rfl, rfl⟩
  | prepareIdentify reply =>
      exact session.steps_run place _ fun peer => ⟨.prepareIdentify reply, rfl, rfl⟩
  | releaseIdentify => exact session.steps_ask place _ fun peer => ⟨.releaseIdentify, rfl, rfl⟩
  | tellCall start outcome =>
      exact session.steps_ask place _ fun peer => ⟨.tellCall start outcome, rfl, rfl⟩
  | tellGoodbye outcome =>
      exact session.steps_ask place _ fun peer => ⟨.tellGoodbye outcome, rfl, rfl⟩
  | cutStream send => exact session.steps_cutStream place send
  | dropSend send =>
      rw [show session.perform place peer (.dropSend send) = session.dropSend place send from rfl,
        node_dropSend]
  | dropHandle => exact session.steps_ask place _ fun peer => ⟨.hold false, rfl, rfl⟩
  | takeHandle => exact session.steps_ask place _ fun peer => ⟨.hold peer.isAlive, rfl, rfl⟩
  | lookUpAgent => exact session.steps_run place _ fun peer => ⟨.lookUpAgent, rfl, rfl⟩
  | goodbye reason timeoutMs =>
      exact session.steps_run place _ fun peer => ⟨.askGoodbye reason timeoutMs, rfl, rfl⟩
  | reputation => exact Relation.ReflTransGen.refl

theorem steps_goOn {session : Session} (orderly : session.node.Orderly) (step : NodeStep) :
    Steps judging session.node (session.goOn step).node := by
  unfold goOn
  split
  · exact Node.steps_elapse orderly _
  · exact Node.steps_settle orderly
  · exact Relation.ReflTransGen.refl

/-- The node after a step: what the step asks is done, and the node goes on. -/
theorem node_step (session : Session) {step : NodeStep} {peer : Peer}
    (found : session.node.peers[step.place]? = some peer) :
    (session.step step).2.node =
      ((session.perform step.place peer step.action).2.goOn step).node := by
  unfold Session.step
  rw [found]
  rfl

theorem steps_step {session : Session} (orderly : session.node.Orderly) (step : NodeStep)
    (warranted : ∀ adjustment, step.action = .handle (.adjust adjustment) → judging) :
    Steps judging session.node (session.step step).2.node := by
  unfold Session.step
  split
  · exact Relation.ReflTransGen.refl
  · rename_i before found
    have performed := session.steps_perform step.place before step.action warranted
    exact performed.trans (steps_goOn (performed.orderly orderly) step)

theorem steps_steps {session : Session} (orderly : session.node.Orderly) (steps : List NodeStep) :
    Steps True session.node (session.steps steps).2.node := by
  induction steps generalizing session with
  | nil => exact Relation.ReflTransGen.refl
  | cons first rest inductionHypothesis =>
      have stepped := steps_step orderly first fun _ _ => trivial
      exact stepped.trans (inductionHypothesis (stepped.orderly orderly))

end Session

end PeerLink
