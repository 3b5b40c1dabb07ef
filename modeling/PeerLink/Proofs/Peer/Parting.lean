import PeerLink.Proofs.Peer.Footprint
import PeerLink.Proofs.Rpc.Channels

/-!
Contract: the parting of a peer, and the steps in which it changes.

The parting is the part of a peer that its goodbyes consist of: the record, the clean disconnect that
wrote it until it begins, goodbyes that wait for their handler, goodbye requests that wait for their
result or their deadline, and what the account says of leaving and of goodbyes. A step is taken under a
leave, which says what the move entitles it to: to have a goodbye request accepted on behalf of a
caller outside, to report a verdict to disconnect, and to end a goodbye.

Owns: partings, their steps, and what of a peer does not touch its parting.

Does not own: the proof that every move consists of steps.
-/

namespace PeerLink.Peer

/-- Whether a note is about leaving or about a goodbye. -/
def Note.isParting : Note → Bool
  | emitted (.disconnectRequested _ _) | emitted (.cleanDisconnectFailed _ _)
  | emitted (.connectionClosed _) | emitted (.reputationDisconnect _)
  | emitted (.invariantViolation _ _) | goodbyeAsked _ _ | goodbyeEnded _ => true
  | logged line => line.message == "Sent goodbye"
  | _ => false

/-- The clean disconnect that begins in a turn, if it is the one that wrote the record. -/
def Turn.invited? : Turn → Option Farewell
  | farewell leaving true => some leaving
  | _ => none

/-- The clean disconnect whose handler was told how to end. -/
def Turn.saidTo? : Turn → Option (Farewell × GoodbyeOutcome)
  | goodbyeTold leaving outcome => some (leaving, outcome)
  | _ => none

def Turn.exchange? : Turn → Option GoodbyeExchange
  | goodbyeDue exchange => some exchange
  | _ => none

/-- Whether a turn is about a goodbye that was asked for or can be. -/
def Turn.isParting : Turn → Bool
  | farewell _ true | goodbyeTold _ _ | goodbyeDue _ => true
  | _ => false

theorem Turn.unread_of_isParting {turn : Turn} (other : turn.isParting = false) :
    turn.invited? = none ∧ turn.saidTo? = none ∧ turn.exchange? = none := by
  cases turn with
  | farewell leaving first =>
      cases first with
      | true => cases other
      | false => exact ⟨rfl, rfl, rfl⟩
  | goodbyeTold | goodbyeDue => cases other
  | _ => exact ⟨rfl, rfl, rfl⟩

structure Parting where
  id : PeerId
  record : Option DisconnectRecord
  /-- How many clean disconnects were asked for. -/
  farewells : Nat
  /-- The clean disconnects that wrote the record and have not begun. -/
  invited : List Farewell
  /-- The clean disconnects whose handler waits to be told. -/
  held : List Farewell
  /-- The clean disconnects whose handler was told, with how the goodbye ends. -/
  told : List (Farewell × GoodbyeOutcome)
  /-- The goodbye requests that wait for their result or deadline. -/
  waiting : List GoodbyeExchange
  /-- The goodbye requests that have their result or have reached their deadline. -/
  due : List GoodbyeExchange
  /-- How many requests were accepted over the method of goodbyes. -/
  accepted : Nat
  notes : List Note

def parting (peer : Peer) : Parting where
  id := peer.id
  record := peer.link.record
  farewells := peer.farewells
  invited := peer.line.filterMap Turn.invited?
  held := peer.heldGoodbyes
  told := peer.line.filterMap Turn.saidTo?
  waiting := peer.exchanges
  due := peer.line.filterMap Turn.exchange?
  accepted := peer.table.acceptedOf .goodbye
  notes := peer.account.filter Note.isParting

/-- The parting before a turn that stands first in the line. -/
theorem parting_of_cons {peer : Peer} {turn : Turn} {rest : List Turn}
    (line : peer.line = turn :: rest) :
    peer.parting =
      { { peer with line := rest }.parting with
        invited := turn.invited?.toList ++ { peer with line := rest }.parting.invited
        told := turn.saidTo?.toList ++ { peer with line := rest }.parting.told
        due := turn.exchange?.toList ++ { peer with line := rest }.parting.due } := by
  simp only [parting, line, List.filterMap_cons]
  cases turn.invited? <;> cases turn.saidTo? <;> cases turn.exchange? <;> rfl

/-- What a move entitles its steps to. -/
structure Leave where
  sends : Prop
  drops : Reputation.Adjustment → Prop
  /-- To end the goodbye for this reason with this outcome. -/
  ends : DisconnectReason → GoodbyeOutcome → Prop

/-- What is noted at the end of a clean disconnect: a fault before the immediate disconnect is
reported, a panic after it. -/
def endNotes (reason : DisconnectReason) (outcome : GoodbyeOutcome) : List Note :=
  let left : Note := .emitted (.disconnectRequested ⟨some reason, true⟩ false)
  match outcome with
  | .said => [left]
  | .failed fault => [.emitted (.cleanDisconnectFailed reason fault.text), left]
  | .panicked message =>
      [left, .emitted (.invariantViolation cleanDisconnectContext (message.getD unknownPanic))]

namespace Parting

/-- The line logged when the remote side has taken the goodbye. -/
def goodbyeLine (parting : Parting) (reason : DisconnectReason) : LogLine :=
  ⟨.debug, "Sent goodbye", [("peer", parting.id), ("reason", reason.text)]⟩

/-- What is logged at the end of a goodbye request. -/
def sentNotes (parting : Parting) (reason : DisconnectReason) : GoodbyeOutcome → List Note
  | .said => [.logged (parting.goodbyeLine reason)]
  | .failed _ | .panicked _ => []

/-- A disconnect is asked for or reported, and so recorded unless another was. -/
def leave (before : Parting) (record : DisconnectRecord) (notes : List Note) : Parting :=
  { before with
    record := some (before.record.getD record)
    notes := before.notes ++ notes }

/-- A clean disconnect is asked for. -/
def request (before : Parting) (reason : DisconnectReason) : Parting :=
  { before.leave ⟨some reason, true⟩ [.emitted (.disconnectRequested ⟨some reason, true⟩ true)] with
    farewells := before.farewells + 1
    invited := before.invited ++
      if before.record.isNone then [⟨before.farewells, reason⟩] else [] }

/-- A clean disconnect ends. -/
def conclude (before : Parting) (reason : DisconnectReason) (outcome : GoodbyeOutcome) : Parting :=
  before.leave ⟨some reason, true⟩ (endNotes reason outcome)

/-- The clean disconnect that wrote the record begins and asks a handler. -/
def ask (before : Parting) (handler : GoodbyeHandler) (farewell : Farewell) (rest : List Farewell) :
    Parting :=
  { before with
    invited := rest
    notes := before.notes ++ [.goodbyeAsked handler farewell.reason] }

/-- A goodbye request is accepted and waits. -/
def await (before : Parting) (caller : GoodbyeCaller) (reason : DisconnectReason)
    (deadline since : Nat) : Parting :=
  { before with
    waiting := before.waiting ++ [⟨caller, reason, ⟨.goodbye, before.accepted⟩, deadline, since⟩]
    accepted := before.accepted + 1 }

/-- A goodbye request of a caller outside ends. -/
def answer (before : Parting) (reason : DisconnectReason) (outcome : GoodbyeOutcome) : Parting :=
  { before with
    notes := before.notes ++ before.sentNotes reason outcome ++ [.goodbyeEnded outcome] }

/-- A goodbye request of a clean disconnect ends. -/
def report (before : Parting) (reason : DisconnectReason) (outcome : GoodbyeOutcome) : Parting :=
  { before with notes := before.notes ++ before.sentNotes reason outcome }.conclude reason outcome

/-- A way in which the parting changes. -/
inductive Step (allows : Leave) (before : Parting) : Parting → Prop where
  | requestsNow (record : DisconnectRecord) :
      Step allows before (before.leave record [.emitted (.disconnectRequested record false)])
  | requestsCleanly (reason : DisconnectReason) : Step allows before (before.request reason)
  /-- A verdict to disconnect is reported and followed. -/
  | drops (adjustment : Reputation.Adjustment) (warranted : allows.drops adjustment) :
      Step allows before
        ({ before with
          notes := before.notes ++ [Note.emitted (.reputationDisconnect adjustment)] }.request
            .remoteFault)
  | closes :
      Step allows before
        (before.leave .remoteClose
          [.emitted (.connectionClosed (before.record.getD .remoteClose))])
  /-- A clean disconnect that did not write the record ends as soon as it begins. -/
  | follows (reason : DisconnectReason) : Step allows before (before.conclude reason .said)
  /-- The clean disconnect that wrote the record begins and there is no handler. -/
  | lapses (farewell : Farewell) (rest : List Farewell)
      (invited : before.invited = farewell :: rest) :
      Step allows before ({ before with invited := rest }.conclude farewell.reason .said)
  /-- It begins and its handler ends in the same turn, with or without having sent a request. -/
  | answers (farewell : Farewell) (rest : List Farewell)
      (invited : before.invited = farewell :: rest) (handler : GoodbyeHandler)
      (outcome : GoodbyeOutcome) (sent : Nat) (warranted : allows.ends farewell.reason outcome) :
      Step allows before
        ({ before.ask handler farewell rest with accepted := before.accepted + sent }.conclude
          farewell.reason outcome)
  /-- It begins and its handler waits to be told. -/
  | holds (farewell : Farewell) (rest : List Farewell)
      (invited : before.invited = farewell :: rest) (handler : GoodbyeHandler) :
      Step allows before
        { before.ask handler farewell rest with held := before.held ++ [farewell] }
  /-- It begins and its handler sends a request. -/
  | sends (farewell : Farewell) (rest : List Farewell)
      (invited : before.invited = farewell :: rest) (handler : GoodbyeHandler)
      (deadline since : Nat) :
      Step allows before
        ((before.ask handler farewell rest).await (.farewell farewell.number) farewell.reason deadline
          since)
  | accepts (warranted : allows.sends) :
      Step allows before { before with accepted := before.accepted + 1 }
  | sendsOutside (warranted : allows.sends) (reason : DisconnectReason) (deadline since : Nat) :
      Step allows before (before.await .outside reason deadline since)
  /-- A goodbye request of a caller outside fails in the turn in which it begins. -/
  | failsOutside (reason : DisconnectReason) (fault : DisconnectError) :
      Step allows before (before.answer reason (.failed fault))
  | tells (farewell : Farewell) (rest : List Farewell) (held : before.held = farewell :: rest)
      (outcome : GoodbyeOutcome) :
      Step allows before
        { before with held := rest, told := before.told ++ [(farewell, outcome)] }
  | concludes (farewell : Farewell) (outcome : GoodbyeOutcome)
      (rest : List (Farewell × GoodbyeOutcome)) (told : before.told = (farewell, outcome) :: rest)
      (warranted : allows.ends farewell.reason outcome) :
      Step allows before ({ before with told := rest }.conclude farewell.reason outcome)
  | wakes (exchange : GoodbyeExchange)
      (found : before.waiting.find? (·.ticket == exchange.ticket) = some exchange) :
      Step allows before
        { before with
          waiting := before.waiting.filter (·.ticket != exchange.ticket)
          due := before.due ++ [exchange] }
  | ends (exchange : GoodbyeExchange) (rest : List GoodbyeExchange)
      (due : before.due = exchange :: rest) (number : Nat)
      (caller : exchange.caller = .farewell number) (outcome : GoodbyeOutcome)
      (returns : ∀ message, outcome ≠ .panicked message)
      (warranted : allows.ends exchange.reason outcome) :
      Step allows before ({ before with due := rest }.report exchange.reason outcome)
  | endsOutside (exchange : GoodbyeExchange) (rest : List GoodbyeExchange)
      (due : before.due = exchange :: rest) (caller : exchange.caller = .outside)
      (outcome : GoodbyeOutcome) :
      Step allows before ({ before with due := rest }.answer exchange.reason outcome)

/-- Any number of steps under one leave. -/
abbrev Steps (allows : Leave) : Parting → Parting → Prop := Relation.ReflTransGen (Step allows)

theorem Steps.preserves {allows : Leave} {holds : Parting → Prop}
    (each : ∀ {before after}, Step allows before after → holds before → holds after)
    {before after : Parting} (steps : Steps allows before after) (initially : holds before) :
    holds after := by
  induction steps with
  | refl => exact initially
  | tail _ step inductionHypothesis => exact each step inductionHypothesis

end Parting

/-! ## What the parting does not show -/

/-- Whether a change of this aspect shows in the parting. -/
def Aspect.inParting : Aspect → Bool
  | .table | .request | .telling | .waiting | .goodbye | .report => true
  | _ => false

theorem Note.isParting_of_aspect {note : Note} (unseen : note.aspect.inParting = false) :
    note.isParting = false := by
  cases note with
  | emitted occurrence =>
      cases occurrence with
      | identityResolved | identityLookupFailed | connectionCloseFailed => rfl
      | _ => cases unseen
  | goodbyeAsked | goodbyeEnded | logged => cases unseen
  | _ => rfl

theorem Turn.isParting_of_aspect {turn : Turn} (unseen : turn.aspect.inParting = false) :
    turn.isParting = false := by
  cases turn with
  | farewell | goodbyeTold | goodbyeDue => cases unseen
  | _ => rfl

section Untouched

variable (peer : Peer)

theorem parting_note (note : Note) (other : note.isParting = false) :
    (peer.note note).parting = peer.parting := by
  simp [parting, Peer.note, Peer.id, other]

theorem parting_noteAll {notes : List Note} (other : ∀ note ∈ notes, note.isParting = false) :
    (peer.noteAll notes).parting = peer.parting := by
  simp [parting, Peer.noteAll, Peer.id, List.filter_eq_nil_iff.mpr (by simpa using other)]

theorem parting_enlist (turn : Turn) (other : turn.isParting = false) :
    (peer.enlist turn).parting = peer.parting := by
  simp [parting, Peer.enlist, Peer.id, List.filterMap_append, Turn.unread_of_isParting other]

theorem parting_judged (authority : Authority) (now : Reputation.Instant)
    (adjustment : Reputation.Adjustment) :
    (peer.noteAll (authority.judge now peer.address adjustment).notes).parting = peer.parting := by
  refine peer.parting_noteAll fun note member => ?_
  unfold Authority.judge at member
  split at member
  · rw [List.mem_singleton.mp member]
    rfl
  · rename_i ledger
    obtain ⟨line, isLogged, rfl⟩ := List.mem_map.mp member
    have isDropLine : line = ledger.dropLine peer.address := by
      simp only [Reputation.Ledger.adjust] at isLogged
      split at isLogged
      · exact List.mem_singleton.mp isLogged
      · cases isLogged
    rw [isDropLine]
    rfl

variable {before after : Peer}

theorem Change.parting_eq {aspect : Aspect} (change : Change before aspect after)
    (unseen : aspect.inParting = false) : after.parting = before.parting := by
  cases change with
  | note note => exact before.parting_note note (Note.isParting_of_aspect unseen)
  | enlist turn => exact before.parting_enlist turn (Turn.isParting_of_aspect unseen)
  | table | link | farewells | observers | heldGoodbyes | exchanges | farewellsEnded => cases unseen
  | _ => rfl

theorem ChangesOnly.parting_eq {aspects : List Aspect} (changes : before.ChangesOnly aspects after)
    (unseen : aspects.any Aspect.inParting = false) : after.parting = before.parting :=
  changes.view_eq Change.parting_eq unseen

end Untouched

end PeerLink.Peer
