import PeerLink.Proofs.Node.Settle
import PeerLink.Proofs.Peer.Closes
import PeerLink.Proofs.Peer.Verdicts
import PeerLink.Proofs.Reputation.Bans

/-!
Contract: that whoever is banned has left.

The ban is kept by the authority, the record by the peer, and neither looks at the other: what they
share is the verdict. A verdict to disconnect stores the ban, reports itself and has the peer leave. So
on a node whose peers have different ids, and where nobody else reports adjustments, a stored ban
belongs to a peer that was dropped, and a dropped peer has a record.

Owns: what happens to the peers of one authority, in any order, and what the drops among it lead to.

Does not own: when a ban is stored, and what the peer makes of the verdict.
-/

namespace PeerLink

/-! ## What happens to the peers of one authority -/

/-- An adjustment that led to a verdict to disconnect, and what the peer had recorded by then. -/
structure Drop where
  place : Nat
  peer : PeerId
  adjustment : Reputation.Adjustment
  earlier : Option DisconnectRecord
deriving DecidableEq, Repr

/-- What the peer has recorded from then on. -/
def Drop.record (drop : Drop) : DisconnectRecord := drop.earlier.getD Peer.faultRecord

inductive Happening where
  /-- A peer is added after the others. -/
  | joins (settings : Settings) (address : PeerAddress) (publicKey : String) (dialled : Bool)
      (connection : Peer.Connection) (delegates : List Rpc.Delegate)
  | step (step : NodeStep)
  /-- The next turn is taken, if there is one. -/
  | turn
  /-- From now on the clock of the bans reads this. -/
  | reads (now : Reputation.Instant)
deriving Repr

namespace Session

/-- Nobody has joined, and the authority has heard of nobody. -/
def scored (policy : Reputation.Policy) : Session :=
  { node := { authority := .scored { policy := policy }, banClock := 0 } }

def happen (session : Session) : Happening → Session
  | .joins settings address publicKey dialled connection delegates =>
      session.addPeer (.create settings address publicKey dialled connection delegates)
  | .step step => (session.step step).2
  | .turn => { session with node := session.node.advance?.getD session.node }
  | .reads now => { session with node := { session.node with banClock := now } }

/-- The verdict to disconnect that a happening leads to, if it does. -/
def drop? (session : Session) : Happening → Option Drop
  | .step ⟨place, .handle (.adjust adjustment), _⟩ =>
      (session.node.peers[place]?).bind fun peer =>
        if peer.owned = true ∧ (session.node.adjust place adjustment).1 = .disconnect then
          some ⟨place, peer.id, adjustment, peer.link.record⟩
        else none
  | _ => none

/-- The session after everything that happened. -/
def after (session : Session) (happenings : List Happening) : Session :=
  happenings.foldl happen session

/-- The verdicts to disconnect among what happened, in order. -/
def drops (session : Session) : List Happening → List Drop
  | [] => []
  | first :: rest => (session.drop? first).toList ++ (session.happen first).drops rest

end Session

namespace Node

/-! ## The account of a node -/

/-- The verdicts to disconnect that the peers of a node reported, each with its place. -/
def dropped (node : Node) : List (Nat × Reputation.Adjustment) :=
  node.account.filterMap fun entry => entry.2.dropped?.map (entry.1, ·)

/-- The account of a node takes up what a peer reports in addition. -/
theorem dropped_commit (node : Node) (place kept : Nat) {before after : Peer}
    {more : List Reputation.Adjustment} (grows : before.account <+: after.account)
    (reports : after.dropped = before.dropped ++ more) :
    (node.commit place before after kept).dropped = node.dropped ++ more.map (place, ·) := by
  obtain ⟨added, isAdded⟩ := grows
  have isMore : added.filterMap Peer.Note.dropped? = more := by
    rw [Peer.dropped, Peer.dropped, ← isAdded, List.filterMap_append] at reports
    exact List.append_cancel_left reports
  rw [dropped, commit, ← isAdded, List.drop_left, List.filterMap_append, List.filterMap_map,
    ← isMore, List.map_filterMap]
  rfl

theorem dropped_commit_of_same (node : Node) (place kept : Nat) {before after : Peer}
    (grows : before.account <+: after.account) (same : after.dropped = before.dropped) :
    (node.commit place before after kept).dropped = node.dropped := by
  rw [node.dropped_commit place kept grows (same.trans (List.append_nil _).symm), List.map_nil,
    List.append_nil]

/-! ## Steps in which nobody is judged -/

section Unjudged

variable {before after : Node}

theorem Step.authority_eq (step : Step False before after) : after.authority = before.authority := by
  cases step with
  | judges place peer adjustment found warranted => exact warranted.elim
  | _ => rfl

theorem Step.dropped_eq (step : Step False before after) (orderly : before.Orderly) :
    after.dropped = before.dropped := by
  cases step with
  | acts place peer move found plain =>
      have fit := orderly.fit peer (List.mem_of_getElem? found)
      have other (clock : Peer.Clock) : move ≠ .turn clock := by
        rintro rfl
        cases plain
      obtain ⟨cost, grows⟩ := Peer.grows_move fit other
      refine before.dropped_commit_of_same place _ grows.account (peer.dropped_move ?_)
      rintro authority now adjustment rfl
      cases plain
  | takes place rest peer turns found =>
      have fit := orderly.fit peer (List.mem_of_getElem? found)
      have grows : peer.account <+: (peer.move (.turn before.clock)).account := by
        cases line : peer.line with
        | nil => simp only [Peer.move_turn_of_nil line, List.prefix_rfl]
        | cons turn later => exact (Peer.grows_turn fit before.clock line).account
      exact dropped_commit_of_same { before with turns := rest, clock := before.clock.tick } place _
        grows (peer.dropped_move nofun)
  | looks clock => rfl
  | judges place peer adjustment found warranted => exact warranted.elim

theorem Steps.unjudged (steps : Steps False before after) (orderly : before.Orderly) :
    after.authority = before.authority ∧ after.dropped = before.dropped := by
  induction steps with
  | refl => exact ⟨rfl, rfl⟩
  | tail earlier step inductionHypothesis =>
      exact ⟨step.authority_eq.trans inductionHypothesis.1,
        (step.dropped_eq (Steps.orderly earlier orderly)).trans inductionHypothesis.2⟩

end Unjudged

variable {judging : Prop} {before after : Node}

theorem Step.length_eq (step : Step judging before after) :
    after.peers.length = before.peers.length := by
  cases step with
  | acts | takes | judges => exact List.length_set
  | looks => rfl

theorem Steps.length_eq (steps : Steps judging before after) :
    after.peers.length = before.peers.length := by
  induction steps with
  | refl => rfl
  | tail _ step inductionHypothesis => exact step.length_eq.trans inductionHypothesis

/-- Every peer is still there, after a history of its own. -/
theorem Steps.plays (steps : Steps judging before after) {place : Nat} {peer : Peer}
    (found : before.peers[place]? = some peer) :
    ∃ moves, after.peers[place]? = some (peer.play moves) := by
  have bound := (List.getElem?_eq_some_iff.mp found).1
  rw [← steps.length_eq] at bound
  have there : after.peers[place]? = some after.peers[place] := List.getElem?_eq_getElem bound
  obtain ⟨earlier, moves, start, isLater⟩ := steps.peer there
  obtain rfl := Option.some.inj (start.symm.trans found)
  exact ⟨moves, isLater ▸ there⟩

/-! ## What the drops so far lead to -/

/-- The dropped peer is in its place and has its record. -/
def Left (node : Node) (drop : Drop) : Prop :=
  ∃ peer, node.peers[drop.place]? = some peer ∧ peer.id = drop.peer ∧
    peer.link.record = some drop.record

/-- A peer that left stays in its place and keeps its record. -/
theorem Left.lasts {drop : Drop} (left : before.Left drop) (orderly : before.Orderly)
    (steps : Steps judging before after) : after.Left drop := by
  obtain ⟨peer, found, isPeer, recorded⟩ := left
  obtain ⟨moves, there⟩ := steps.plays found
  have sound := (orderly.fit peer (List.mem_of_getElem? found)).sound
  have samePeer : (peer.play moves).id = peer.id :=
    congrArg PeerAddress.peerId (peer.address_play moves)
  exact ⟨peer.play moves, there, samePeer.trans isPeer,
    (Peer.extends_play sound moves).record _ recorded⟩

/-- The drops so far were reported, the dropped peers left, and only those may be banned. -/
structure Enforced (node : Node) (drops : List Drop) : Prop where
  orderly : node.Orderly
  reported : node.dropped = drops.map fun drop => (drop.place, drop.adjustment)
  left : ∀ drop ∈ drops, node.Left drop
  banned : ∃ ledger, node.authority = .scored ledger ∧ ledger.Distinct ∧
    ∀ id deadline, ledger.banEnd? id = some deadline → ∃ drop ∈ drops, drop.peer = id

section Enforcement

variable {drops : List Drop}

theorem Enforced.steps (enforced : before.Enforced drops) (steps : Steps False before after) :
    after.Enforced drops where
  orderly := steps.orderly enforced.orderly
  reported := (steps.unjudged enforced.orderly).2.trans enforced.reported
  left drop member := (enforced.left drop member).lasts enforced.orderly steps
  banned := by
    rw [(steps.unjudged enforced.orderly).1]
    exact enforced.banned

theorem Enforced.addPeer {node : Node} (enforced : node.Enforced drops) {peer : Peer}
    (fit : peer.Fit) (silent : peer.dropped = []) : (node.addPeer peer).Enforced drops where
  orderly := enforced.orderly.addPeer fit
  reported := by
    have added : (peer.account.map fun note => (node.peers.length, note)).filterMap
        (fun entry => entry.2.dropped?.map (entry.1, ·)) = [] := by
      rw [List.filterMap_map]
      refine List.filterMap_eq_nil_iff.mpr fun note member => ?_
      exact Option.map_eq_none_iff.mpr (List.filterMap_eq_nil_iff.mp silent note member)
    rw [← enforced.reported, dropped, Node.addPeer, List.filterMap_append, added, List.append_nil]
    rfl
  left drop member := by
    obtain ⟨other, found, rest⟩ := enforced.left drop member
    have bound := (List.getElem?_eq_some_iff.mp found).1
    exact ⟨other, (List.getElem?_append_left bound).trans found, rest⟩
  banned := enforced.banned

theorem Enforced.reads {node : Node} (enforced : node.Enforced drops) (now : Reputation.Instant) :
    Enforced { node with banClock := now } drops :=
  ⟨⟨enforced.orderly.known, enforced.orderly.counted, enforced.orderly.fit⟩, enforced.reported,
    enforced.left, enforced.banned⟩

/-- Without a verdict to disconnect an adjustment changes the authority alone. -/
theorem Enforced.adjust_of_kept {node : Node} (enforced : node.Enforced drops) {place : Nat}
    {adjustment : Reputation.Adjustment} (keeps : (node.adjust place adjustment).1 ≠ .disconnect) :
    ∃ authority, (node.adjust place adjustment).2 = { node with authority := authority } := by
  cases found : node.peers[place]? with
  | none =>
      refine ⟨node.authority, ?_⟩
      simp [adjust, found]
  | some peer =>
      obtain ⟨ledger, isLedger, -⟩ := enforced.banned
      rw [node.adjust_eq found] at keeps ⊢
      rw [isLedger] at keeps ⊢
      refine ⟨((Authority.scored ledger).judge node.banClock peer.address adjustment).authority, ?_⟩
      rw [show peer.move (.adjust (.scored ledger) node.banClock adjustment) = peer from
        peer.adjust_of_kept keeps]
      exact commit_self { node with authority := _ } found

/-- Only a peer that is dropped by an adjustment may be banned after it, and who was before. -/
theorem Enforced.banned_adjust {node : Node} (enforced : node.Enforced drops) {place : Nat}
    {peer : Peer} (found : node.peers[place]? = some peer) (adjustment : Reputation.Adjustment) :
    ∃ ledger, (node.adjust place adjustment).2.authority = .scored ledger ∧ ledger.Distinct ∧
      ∀ id deadline, ledger.banEnd? id = some deadline → (∃ drop ∈ drops, drop.peer = id) ∨
        peer.id = id ∧ (node.adjust place adjustment).1 = .disconnect := by
  obtain ⟨ledger, isLedger, distinct, banned⟩ := enforced.banned
  rw [node.adjust_eq found, isLedger]
  refine ⟨_, rfl, Reputation.distinct_answer distinct
    (.adjust node.banClock node.banClock peer.address adjustment), fun id deadline stored => ?_⟩
  rw [Reputation.Ledger.banEnd?_adjust] at stored
  split at stored
  · rename_i isDropped
    exact .inr ⟨isDropped.1.symm, isDropped.2⟩
  · exact .inl (banned id deadline (Reputation.Ledger.banEnd?_of_prune distinct stored))

theorem Enforced.adjust_dropped {node : Node} (enforced : node.Enforced drops) {place : Nat}
    {peer : Peer} (found : node.peers[place]? = some peer) {adjustment : Reputation.Adjustment}
    (dropped : (node.adjust place adjustment).1 = .disconnect) :
    (node.adjust place adjustment).2.Enforced
      (drops ++ [⟨place, peer.id, adjustment, peer.link.record⟩]) := by
  -- For the peers that left before, the adjustment is a step like any other.
  have steps : Steps True node (node.adjust place adjustment).2 :=
    node.steps_adjust place adjustment trivial
  have bound := (List.getElem?_eq_some_iff.mp found).1
  have fit := enforced.orderly.fit peer (List.mem_of_getElem? found)
  have adjusted := node.adjust_eq found adjustment
  have verdict : (node.authority.judge node.banClock peer.address adjustment).verdict = .disconnect :=
    (congrArg Prod.fst adjusted).symm.trans dropped
  obtain ⟨reports, recorded⟩ := peer.adjust_of_dropped verdict
  obtain ⟨cost, grows⟩ : ∃ cost, peer.Grows cost
      (peer.move (.adjust node.authority node.banClock adjustment)) := Peer.grows_move fit nofun
  constructor
  · exact steps.orderly enforced.orderly
  · rw [List.map_append, ← enforced.reported, congrArg Prod.snd adjusted]
    exact dropped_commit { node with authority := _ } place _ grows.account reports
  · intro drop member
    rcases List.mem_append.mp member with earlier | last
    · exact (enforced.left drop earlier).lasts enforced.orderly steps
    · rw [List.mem_singleton.mp last, congrArg Prod.snd adjusted]
      refine ⟨_, List.getElem?_set_self bound, ?_, recorded⟩
      exact congrArg PeerAddress.peerId
        (peer.address_play [.adjust node.authority node.banClock adjustment])
  · obtain ⟨ledger, isLedger, distinct, banned⟩ := enforced.banned_adjust found adjustment
    refine ⟨ledger, isLedger, distinct, fun id deadline stored => ?_⟩
    rcases banned id deadline stored with ⟨drop, member, isPeer⟩ | ⟨isPeer, -⟩
    · exact ⟨drop, List.mem_append_left _ member, isPeer⟩
    · exact ⟨_, List.mem_append_right _ List.mem_cons_self, isPeer⟩

theorem Enforced.adjust_kept {node : Node} (enforced : node.Enforced drops) {place : Nat}
    {peer : Peer} (found : node.peers[place]? = some peer) {adjustment : Reputation.Adjustment}
    (keeps : (node.adjust place adjustment).1 ≠ .disconnect) :
    (node.adjust place adjustment).2.Enforced drops := by
  obtain ⟨ledger, isLedger, distinct, banned⟩ := enforced.banned_adjust found adjustment
  obtain ⟨authority, same⟩ := enforced.adjust_of_kept keeps
  rw [same] at isLedger ⊢
  refine ⟨⟨enforced.orderly.known, enforced.orderly.counted, enforced.orderly.fit⟩,
    enforced.reported, enforced.left, ledger, isLedger, distinct, fun id deadline stored => ?_⟩
  exact (banned id deadline stored).resolve_right fun isDropped => keeps isDropped.2

end Enforcement

end Node

namespace Session

variable {session : Session} {drops : List Drop}

/-! ## What happens preserves it -/

/-- What an adjustment through the handle of a peer asks for, before any turn is taken. -/
theorem enforced_perform (enforced : session.node.Enforced drops) {place : Nat} {peer : Peer}
    (found : session.node.peers[place]? = some peer) (adjustment : Reputation.Adjustment)
    (settles : Bool) :
    (session.perform place peer (.handle (.adjust adjustment))).2.node.Enforced
      (drops ++ (session.drop? (.step ⟨place, .handle (.adjust adjustment), settles⟩)).toList) := by
  cases owned : peer.owned with
  | false => simpa [perform, drop?, found, owned] using enforced
  | true =>
      have performed : (session.perform place peer (.handle (.adjust adjustment))).2.node =
          (session.node.adjust place adjustment).2 := by
        simp [perform, performOnHandle, owned]
      rw [performed]
      by_cases dropped : (session.node.adjust place adjustment).1 = .disconnect
      · simpa [drop?, found, owned, dropped] using enforced.adjust_dropped found dropped
      · simpa [drop?, found, dropped] using enforced.adjust_kept found dropped

theorem enforced_step (enforced : session.node.Enforced drops) (step : NodeStep) :
    (session.step step).2.node.Enforced (drops ++ (session.drop? (.step step)).toList) := by
  obtain ⟨place, action, settles⟩ := step
  have unjudged (other : ∀ adjustment, action ≠ .handle (.adjust adjustment))
      (silent : session.drop? (.step ⟨place, action, settles⟩) = none) :
      (session.step ⟨place, action, settles⟩).2.node.Enforced
        (drops ++ (session.drop? (.step ⟨place, action, settles⟩)).toList) := by
    rw [silent, Option.toList_none, List.append_nil]
    exact enforced.steps (steps_step enforced.orderly _ other)
  cases action with
  | handle action =>
      cases action with
      | adjust adjustment =>
          cases found : session.node.peers[place]? with
          | none => simpa [Session.step, drop?, found] using enforced
          | some peer =>
              have performed := enforced_perform enforced found adjustment settles
              rw [session.node_step found]
              exact performed.steps (steps_goOn performed.orderly _)
      | _ => exact unjudged nofun rfl
  | _ => exact unjudged nofun rfl

theorem enforced_happen (enforced : session.node.Enforced drops) (happening : Happening) :
    (session.happen happening).node.Enforced (drops ++ (session.drop? happening).toList) := by
  cases happening with
  | joins settings address publicKey dialled connection delegates =>
      have fit := Peer.fit_create settings address publicKey dialled connection delegates
      simpa [drop?, happen, addPeer] using enforced.addPeer fit (Peer.dropped_create ..)
  | step step => exact enforced_step enforced step
  | turn =>
      have taken : Node.Steps False session.node (session.node.advance?.getD session.node) := by
        cases advances : session.node.advance? with
        | none => exact Relation.ReflTransGen.refl
        | some later => exact Node.steps_advance? enforced.orderly advances
      simpa [drop?, happen] using enforced.steps taken
  | reads now => simpa [drop?, happen] using enforced.reads now

theorem enforced_after (enforced : session.node.Enforced drops) (happenings : List Happening) :
    (session.after happenings).node.Enforced (drops ++ session.drops happenings) := by
  induction happenings generalizing session drops with
  | nil => simpa [after, Session.drops] using enforced
  | cons first rest inductionHypothesis =>
      rw [Session.drops, ← List.append_assoc]
      exact inductionHypothesis (enforced_happen enforced first)

theorem enforced_scored (policy : Reputation.Policy) : (scored policy).node.Enforced [] where
  orderly := Node.orderly_of_empty rfl rfl
  reported := rfl
  left := nofun
  banned := ⟨_, rfl, Reputation.Ledger.distinct_fresh policy, nofun⟩

/-- Peers with different ids share an authority, and nobody else reports adjustments to it. Whatever
happens to them, in whatever order their turns are taken and whatever the clock of the bans reads: who
may not be dialled is not connected, and was dropped before. The record of a dropped peer says that it
was dropped for a remote fault, unless it was leaving by then. Every verdict to disconnect was reported
once, for the peer it was about, and nothing else was reported as one; and any other verdict, also a
failed one, leaves everything but the authority as it is. -/
theorem banned_has_left (policy : Reputation.Policy) (happenings : List Happening)
    (distinct : (((scored policy).after happenings).node.peers.map Peer.id).Nodup) :
    let start := scored policy
    let node := (start.after happenings).node
    ∃ ledger, node.authority = .scored ledger ∧
      (∀ place peer, node.peers[place]? = some peer →
        (∀ now, ledger.allowsDialling now peer.address = false →
          peer.link.connected = false ∧ ∃ drop ∈ start.drops happenings, drop.place = place) ∧
        ∀ drop ∈ start.drops happenings, drop.place = place →
          peer.link.record = some (drop.earlier.getD ⟨some .remoteFault, true⟩)) ∧
      node.dropped = (start.drops happenings).map (fun drop => (drop.place, drop.adjustment)) ∧
      ∀ place adjustment, (node.adjust place adjustment).1 ≠ .disconnect →
        ∃ authority, (node.adjust place adjustment).2 = { node with authority := authority } := by
  intro start node
  have enforced : node.Enforced (start.drops happenings) :=
    enforced_after (enforced_scored policy) happenings
  obtain ⟨ledger, isLedger, -, banned⟩ := enforced.banned
  have recorded {place : Nat} {peer : Peer} (found : node.peers[place]? = some peer) {drop : Drop}
      (member : drop ∈ start.drops happenings) (same : drop.place = place) :
      peer.link.record = some drop.record := by
    obtain ⟨other, there, -, written⟩ := enforced.left drop member
    rw [same, found] at there
    rw [Option.some.inj there]
    exact written
  refine ⟨ledger, isLedger, fun place peer found => ⟨fun now bars => ?_, ?_⟩, enforced.reported,
    fun place adjustment keeps => enforced.adjust_of_kept keeps⟩
  · obtain ⟨deadline, stored, -⟩ := Reputation.Ledger.allowsDialling_eq_false_iff.mp bars
    obtain ⟨drop, member, isPeer⟩ := banned _ deadline stored
    -- The ban was stored for the id, and no other peer has it.
    have same : drop.place = place := by
      obtain ⟨other, there, isOther, -⟩ := enforced.left drop member
      have bound := (List.getElem?_eq_some_iff.mp there).1
      refine (List.getElem?_inj (by rwa [List.length_map]) distinct).mp ?_
      rw [List.getElem?_map, List.getElem?_map, there, found]
      exact congrArg some (isOther.trans isPeer)
    have written := recorded found member same
    have agrees := Peer.agrees_of_sound (enforced.orderly.fit peer (List.mem_of_getElem? found)).sound
    refine ⟨?_, drop, member, same⟩
    rw [← Bool.not_eq_true, agrees.connected, written]
    exact Option.some_ne_none _
  · intro drop member same
    exact recorded found member same

/-- Peer `a` is dropped and rewarded afterwards; peer `b` is leaving when it is dropped. Only a few of
their turns have been taken. -/
def racingDrops : List Happening :=
  let penalty (place : Nat) : Happening := .step ⟨place, .handle (.adjust .largePenalty), false⟩
  [.joins {} ⟨"a", "/one"⟩ "key" true {} [], .joins {} ⟨"b", "/two"⟩ "key" true {} [], penalty 0,
    penalty 0, .turn, .step ⟨1, .handle (.disconnectImmediately ⟨some .tooManyPeers, true⟩), false⟩,
    penalty 1, .reads 5, penalty 1, .turn, .step ⟨0, .handle (.adjust .largeReward), false⟩]

theorem banned_has_left_racingDrops :
    (((scored {}).after racingDrops).node.peers.map Peer.id).Nodup ∧
      (scored {}).drops racingDrops = [⟨0, "a", .largePenalty, none⟩,
        ⟨1, "b", .largePenalty, some ⟨some .tooManyPeers, true⟩⟩] ∧
      ((scored {}).after racingDrops).node.dropped = [(0, .largePenalty), (1, .largePenalty)] ∧
      ∀ peer, ((scored {}).after racingDrops).node.peers[1]? = some peer →
        peer.link.connected = false ∧ peer.link.record = some ⟨some .tooManyPeers, true⟩ := by
  have distinct : (((scored {}).after racingDrops).node.peers.map Peer.id).Nodup := by
    decide +kernel
  have drops : (scored {}).drops racingDrops = [⟨0, "a", .largePenalty, none⟩,
      ⟨1, "b", .largePenalty, some ⟨some .tooManyPeers, true⟩⟩] := by decide +kernel
  have addresses : ((scored {}).after racingDrops).node.peers.map Peer.address =
      [⟨"a", "/one"⟩, ⟨"b", "/two"⟩] := by decide +kernel
  have barred : (match ((scored {}).after racingDrops).node.authority with
      | .scored ledger => ledger.allowsDialling 5 ⟨"b", "/two"⟩
      | .scripted _ => true) = false := by decide +kernel
  obtain ⟨ledger, isLedger, left, reported, -⟩ := banned_has_left {} racingDrops distinct
  rw [isLedger] at barred
  refine ⟨distinct, drops, ?_, fun peer found => ?_⟩
  · rw [reported, drops]
    rfl
  · have isSecond : (((scored {}).after racingDrops).node.peers.map Peer.address)[1]? =
        some peer.address := by
      rw [List.getElem?_map, found]
      rfl
    rw [addresses] at isSecond
    have address : ⟨"b", "/two"⟩ = peer.address := Option.some.inj isSecond
    rw [address] at barred
    obtain ⟨leaves, recorded⟩ := left 1 peer found
    refine ⟨(leaves 5 barred).1,
      recorded ⟨1, "b", .largePenalty, some ⟨some .tooManyPeers, true⟩⟩ ?_ rfl⟩
    rw [drops]
    exact List.mem_cons_of_mem _ List.mem_cons_self

end Session

end PeerLink
