import PeerLink.Proofs.Node.Belongings
import PeerLink.Proofs.Peer.Bookkeeping
import PeerLink.Proofs.Peer.Goodbye

/-!
Contract: that every request to disconnect leads to one request to close.

An immediate disconnect asks the connection to close, and so does a clean one as soon as its goodbye is
over, however that went. Of the clean disconnects at most one waits for its goodbye.

Owns: what the balance of the books says about a peer that is at rest.

Does not own: the balance.
-/

namespace PeerLink.Peer

namespace Books

/-- What holds of the books at all times. -/
structure Balanced (books : Books) : Prop where
  counted : books.Counted
  placed : books.Placed
  ticketed : books.Ticketed

theorem Steps.balanced {before after : Books} (steps : Steps before after)
    (balanced : before.Balanced) : after.Balanced := by
  induction steps with
  | refl => exact balanced
  | tail _ step inductionHypothesis =>
      constructor
      · exact step.counted inductionHypothesis.counted
      · exact step.placed inductionHypothesis.placed inductionHypothesis.ticketed
      · exact step.ticketed inductionHypothesis.ticketed

theorem Steps.address_eq {before after : Books} (steps : Steps before after) :
    after.address = before.address := by
  induction steps with
  | refl => rfl
  | tail _ step inductionHypothesis =>
      rw [← inductionHypothesis]
      cases step <;> rfl

/-- A clean disconnect that is over stays so. -/
theorem Steps.ended_subset {before after : Books} (steps : Steps before after) :
    before.ended ⊆ after.ended := by
  induction steps with
  | refl => exact List.Subset.refl _
  | tail _ step inductionHypothesis =>
      refine List.Subset.trans inductionHypothesis ?_
      cases step with
      | ends => exact List.subset_append_left _ _
      | _ => exact List.Subset.refl _

end Books

/-! ## Histories -/

/-- What a history asks for from outside. -/
def callsOf (address : PeerAddress) (moves : List Move) : Calls :=
  moves.foldl (Move.calls address) {}

/-- The books of a peer of which nothing was asked. -/
def Books.fresh (address : PeerAddress) (accepted : Nat) : Books where
  address := address
  outside := {}
  entries := []
  errands := []
  farewells := 0
  held := []
  exchanges := []
  accepted := accepted
  ended := []

theorem Books.balanced_fresh (address : PeerAddress) (accepted : Nat) :
    (fresh address accepted).Balanced where
  counted := ⟨rfl, rfl, rfl, rfl⟩
  placed := ⟨List.Perm.refl _, Nat.le_refl 0⟩
  ticketed := ⟨List.nodup_nil, by intro exchange member; cases member⟩

theorem books_create (settings : Settings) (address : PeerAddress) (publicKey : String)
    (dialled : Bool) (connection : Connection) (delegates : List Rpc.Delegate) :
    (create settings address publicKey dialled connection delegates).books {} =
      .fresh address ((Rpc.Table.ofDelegates settings.maxConcurrentRequests delegates).2.acceptedOf
        .goodbye) := by
  simp only [create, books, List.filterMap_map, Function.comp_def, Note.entry?, Turn.errand?,
    List.filterMap_none, List.filterMap_cons, List.filterMap_nil, List.map_nil, Books.fresh]

theorem booked_play (peer : Peer) (moves : List Move) (calls : Calls) :
    Books.Steps (peer.books calls)
      ((peer.play moves).books (moves.foldl (Move.calls peer.address) calls)) := by
  induction moves generalizing peer calls with
  | nil => exact Relation.ReflTransGen.refl
  | cons first rest inductionHypothesis =>
      have moved : Books.Steps (peer.books calls)
        ((peer.move first).books (first.calls peer.address calls)) := peer.booked_move first
      have later := inductionHypothesis (peer.move first) (first.calls peer.address calls)
      have same : (peer.move first).address = peer.address := moved.address_eq
      rw [same] at later
      exact moved.trans later

/-- A peer keeps its address. -/
theorem address_play (peer : Peer) (moves : List Move) : (peer.play moves).address = peer.address :=
  (peer.booked_play moves {}).address_eq

/-- A clean disconnect that is over stays so. -/
theorem farewellsEnded_play (peer : Peer) (moves : List Move) :
    peer.farewellsEnded ⊆ (peer.play moves).farewellsEnded :=
  (peer.booked_play moves {}).ended_subset

/-! ## A peer at rest -/

/-- What the account says about leaving, in order. -/
def entries (peer : Peer) : List Entry := peer.account.filterMap Note.entry?

/-- The clean disconnects that wait for the end of their goodbye. -/
def pendingFarewells (peer : Peer) : List Nat :=
  peer.heldGoodbyes.map Farewell.number ++
    peer.exchanges.filterMap fun exchange => exchange.caller.number?

theorem count_goodbye (account : List Note) :
    (account.filterMap Note.entry?).count .goodbye = (account.filterMap Note.invited?).length := by
  unfold List.count
  rw [List.countP_filterMap, List.length_filterMap_eq_countP]
  apply List.countP_congr
  intro note member
  cases note with
  | emitted occurrence =>
      cases occurrence with
      | disconnectRequested record clean =>
          cases clean <;> simp [Note.entry?, Note.invited?]
      | _ => simp [Note.entry?, Note.invited?]
  | reacted observer deed => cases deed <;> simp [Note.entry?, Note.invited?]
  | _ => simp [Note.entry?, Note.invited?]

/-- A handler is asked at most once, so at most one clean disconnect is under way. -/
theorem underWay_le_one (settings : Settings) (address : PeerAddress) (publicKey : String)
    (dialled : Bool) (connection : Connection) (delegates : List Rpc.Delegate) (moves : List Move) :
    ((create settings address publicKey dialled connection delegates).play moves).entries.count
      .goodbye ≤ 1 := by
  have kept := saysOnce_play
    (departure_create settings address publicKey dialled connection delegates) moves
  have once := kept.once
  rw [Departure.invitations, List.length_append] at once
  rw [entries, count_goodbye,
    ← filterMap_kind Note.isDeparture fun _ _ => Note.isDeparture_of_invited?]
  exact Nat.le_trans (Nat.le_add_right _ _) once

/-- When a peer is at rest, the connection was asked to close as often as the peer was asked to
disconnect, by whatever route, except for the one clean disconnect that may still wait for its
goodbye. Every other clean disconnect is over, as whoever waits for it sees, and every request was
reported as what it was. -/
theorem closes_in_balance (settings : Settings) (address : PeerAddress) (publicKey : String)
    (dialled : Bool) (connection : Connection) (delegates : List Rpc.Delegate) (moves : List Move)
    (atRest : ((create settings address publicKey dialled connection delegates).play
      moves).line = []) :
    let peer := (create settings address publicKey dialled connection delegates).play moves
    let immediate := (callsOf address moves).now + peer.entries.count .byObserver
    let clean := (callsOf address moves).cleanly + peer.entries.count .cleanlyByObserver
    peer.entries.count .close + peer.pendingFarewells.length = immediate + clean ∧
      peer.pendingFarewells.length ≤ 1 ∧
      peer.entries.count .cleanly = clean ∧
      peer.entries.count .now = peer.entries.count .close ∧
      (peer.farewellsEnded ++ peer.pendingFarewells).Perm (List.range clean) ∧
      ∀ (session : Session) (place : Nat) (kept : KeptFarewell),
        kept ∈ (session.belongingsAt place).farewells → kept.farewell < clean →
        kept.farewell ∉ peer.pendingFarewells →
        { kept with seen := true } ∈
          ((session.collect place peer).2.2.belongingsAt place).farewells := by
  intro peer immediate clean
  have balanced : (peer.books (callsOf address moves)).Balanced := by
    have booked := (create settings address publicKey dialled connection delegates).booked_play
      moves {}
    rw [books_create] at booked
    exact booked.balanced (Books.balanced_fresh _ _)
  have once := underWay_le_one settings address publicKey dialled connection delegates moves
  obtain ⟨counted, placed, -⟩ := balanced
  -- Nothing stands in the line: no close is outstanding, and no clean disconnect begins or ends.
  have errands : (peer.books (callsOf address moves)).errands = [] := by
    simp [books, show peer.line = [] from atRest]
  have pending : (peer.books (callsOf address moves)).underWay = peer.pendingFarewells := by
    rw [Books.underWay, errands]
    simp [books, endings, pendingFarewells, List.filterMap_map]
  have cleanly : peer.entries.count .cleanly = clean := counted.cleanly
  have closes : peer.entries.count .close + 0 = peer.entries.count .now := by
    have closes := counted.closes
    rw [errands] at closes
    exact closes
  have now : peer.entries.count .now = immediate + peer.farewellsEnded.length := counted.now
  have places : (peer.farewellsEnded ++ peer.pendingFarewells).Perm (List.range clean) := by
    have places := placed.places
    rw [pending, Books.waiting, errands, counted.farewells] at places
    rw [← cleanly]
    exact List.perm_append_comm.trans places
  have asked : peer.pendingFarewells.length ≤ peer.entries.count .goodbye := by
    rw [← pending]
    exact placed.asked
  have numbers := places.length_eq
  rw [List.length_append, List.length_range] at numbers
  refine ⟨by omega, Nat.le_trans asked once, cleanly, by omega, places, ?_⟩
  intro session place kept waits asked notPending
  have somewhere := places.mem_iff.mpr (List.mem_range.mpr asked)
  exact session.seen_collect place waits ((List.mem_append.mp somewhere).resolve_right notPending)

/-- The handler waits to be told. A verdict, the owner and an observer ask for clean disconnects, the
owner and the observer for immediate ones. -/
def heldGoodbye : List Move :=
  [.setHandler (.scripted none),
    .subscribe ⟨"observer", [.disconnect none, .disconnectCleanly .shutdown]⟩,
    .adjust (.scripted [true]) 0 .largePenalty, .disconnectCleanly .rateLimiting,
    .disconnectImmediately ⟨none, true⟩] ++ List.replicate 12 (.turn {})

theorem closes_in_balance_heldGoodbye :
    let peer := (create {} ⟨"peer", "/address"⟩ "key" true {} []).play heldGoodbye
    peer.line = [] ∧ peer.pendingFarewells = [0] ∧ peer.entries.count .close = 4 ∧
      peer.farewellsEnded = [1, 2] ∧
      peer.entries.count .close + peer.pendingFarewells.length =
        (callsOf ⟨"peer", "/address"⟩ heldGoodbye).now + peer.entries.count .byObserver +
          ((callsOf ⟨"peer", "/address"⟩ heldGoodbye).cleanly +
            peer.entries.count .cleanlyByObserver) := by
  have rests : ((create {} ⟨"peer", "/address"⟩ "key" true {} []).play heldGoodbye).line = [] := by
    decide +kernel
  have balance := closes_in_balance {} ⟨"peer", "/address"⟩ "key" true {} [] heldGoodbye rests
  exact ⟨rests, by decide +kernel, by decide +kernel, by decide +kernel, balance.1⟩

end PeerLink.Peer
