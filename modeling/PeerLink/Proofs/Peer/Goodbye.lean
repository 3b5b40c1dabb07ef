import Mathlib.Data.List.Induction
import PeerLink.Proofs.Peer.Record

/-!
Contract: when a goodbye handler is asked, and for what.

A clean request finds out at once whether it is the one that writes the record, and its task carries
the answer until its turn comes. The turn of a task that wrote the record and the asking that comes
of it are one invitation, first to come and then made; there is never more than one.

Owns: invitations, the numbers of clean disconnects, and the histories after which a handler has been
asked.

Does not own: what the handler does.
-/

namespace PeerLink.Peer

/-- The reason a handler was asked with. -/
def Note.invited? : Note → Option DisconnectReason
  | goodbyeAsked _ reason => some reason
  | _ => none

theorem Note.isDeparture_of_invited? {note : Note} {reason : DisconnectReason}
    (invited : note.invited? = some reason) : note.isDeparture = true := by
  unfold invited? at invited
  split at invited
  · rfl
  · cases invited

/-- The reason a handler will be asked with, if one is installed when the turn comes. -/
def Turn.inviting? : Turn → Option DisconnectReason
  | farewell leaving true => some leaving.reason
  | _ => none

namespace Departure

/-- The invitations that were made, and those that wait for their turn. -/
def invitations (state : Departure) : List DisconnectReason :=
  state.notes.filterMap Note.invited? ++ state.turns.filterMap Turn.inviting?

structure SaysOnce (state : Departure) : Prop where
  once : state.invitations.length ≤ 1
  recorded : ∀ reason ∈ state.invitations, state.link.record = some ⟨some reason, true⟩

theorem saysOnce_fresh (closed : Bool) : (fresh closed).SaysOnce where
  once := Nat.zero_le 1
  recorded := by simp [invitations, fresh, Turn.inviting?]

section Steps

variable {warrant : Warrant} {before after : Departure}

/-! ## At most one invitation -/

/-- Invitations are made in turn or lapse for want of a handler. A new one comes with the record. -/
theorem Step.invitations (step : Step warrant before after) :
    after.invitations.Sublist before.invitations ∨
      before.link.record = none ∧ ∃ reason,
        after.invitations = before.invitations ++ [reason] ∧
          after.link.record = some ⟨some reason, true⟩ := by
  cases step with
  | requestsNow record =>
      left
      simp [Departure.invitations, List.filterMap_cons, Note.invited?]
  | requestsCleanly reason warranted =>
      cases written : before.link.record with
      | none =>
          right
          refine ⟨rfl, reason, ?_, by simp [written]⟩
          simp [Departure.invitations, List.filterMap_cons, Note.invited?, Turn.inviting?, written]
      | some record =>
          left
          simp [Departure.invitations, List.filterMap_cons, Note.invited?, Turn.inviting?, written]
  | closesWatched isWaiting =>
      left
      simp [Departure.invitations, List.filterMap_cons, Turn.inviting?]
  | looks rest turns isOpen =>
      left
      simp [Departure.invitations, List.filterMap_cons, turns, Turn.inviting?]
  | sees rest turns isClosed warranted =>
      left
      simp [Departure.invitations, List.filterMap_cons, turns, Note.invited?, Turn.inviting?]
  | notifies id name record announced warranted =>
      left
      simp [Departure.invitations, List.filterMap_cons, Note.invited?]
  | reacts name deed announced sees =>
      left
      simp [Departure.invitations, List.filterMap_cons, Note.invited?]
  | begins farewell rest turns =>
      left
      simp [Departure.invitations, List.filterMap_cons, turns, Turn.inviting?]
  | beginsFirst farewell rest handler turns warranted =>
      left
      cases handler with
      | none => simp [Departure.invitations, turns, Turn.inviting?]
      | some handler => simp [Departure.invitations, turns, Note.invited?, Turn.inviting?]
  | closesUnwatched | subscribes | unsubscribes => exact .inl (List.Sublist.refl _)

theorem Step.saysOnce (step : Step warrant before after) (kept : before.SaysOnce) :
    after.SaysOnce := by
  rcases step.invitations with sublist | ⟨unwritten, reason, invited, written⟩
  · exact
      { once := Nat.le_trans sublist.length_le kept.once
        recorded := fun reason member =>
          step.extends.record _ (kept.recorded reason (sublist.subset member)) }
  · -- An earlier invitation would have come with a record.
    have nobody : before.invitations = [] := by
      refine List.eq_nil_iff_forall_not_mem.mpr fun earlier member => ?_
      have recorded := kept.recorded earlier member
      rw [unwritten] at recorded
      cases recorded
    rw [nobody, List.nil_append] at invited
    exact
      { once := by rw [invited]; exact Nat.le_refl 1
        recorded := by
          rw [invited]
          intro other member
          rw [List.mem_singleton.mp member]
          exact written }

/-! ## The numbers of clean disconnects -/

/-- Where a clean disconnect in the line comes from. -/
theorem Step.farewell_cases (step : Step warrant before after) {farewell : Farewell} {first : Bool}
    (member : .farewell farewell first ∈ after.turns) :
    .farewell farewell first ∈ before.turns ∨
      farewell.number = before.farewells ∧ after.farewells = before.farewells + 1 ∧
        first = before.link.record.isNone ∧
        (before.link.record = none → warrant.leaves farewell.reason) := by
  cases step with
  | requestsCleanly reason warranted =>
      refine (List.mem_append.mp member).imp_right fun added => ?_
      obtain ⟨rfl, rfl⟩ := Turn.farewell.inj (List.mem_singleton.mp added)
      exact ⟨rfl, rfl, by simp, warranted⟩
  | closesWatched isWaiting =>
      refine (List.mem_append.mp member).imp_right fun added => ?_
      cases List.mem_singleton.mp added
  | looks rest turns isOpen => exact .inl (turns ▸ List.mem_cons_of_mem _ member)
  | sees rest turns isClosed warranted => exact .inl (turns ▸ List.mem_cons_of_mem _ member)
  | begins farewell rest turns => exact .inl (turns ▸ List.mem_cons_of_mem _ member)
  | beginsFirst farewell rest handler turns warranted =>
      exact .inl (turns ▸ List.mem_cons_of_mem _ member)
  | requestsNow | closesUnwatched | subscribes | unsubscribes | notifies | reacts =>
      exact .inl member

theorem Step.farewells_le (step : Step warrant before after) :
    before.farewells ≤ after.farewells := by
  cases step with
  | requestsCleanly => exact Nat.le_succ _
  | _ => exact Nat.le_refl _

/-- As long as nothing is recorded, no clean disconnect was asked for. -/
theorem Step.unrecorded (step : Step warrant before after) (unwritten : after.link.record = none) :
    before.link.record = none ∧ after.farewells = before.farewells := by
  cases step with
  | requestsNow | requestsCleanly | sees => simp at unwritten
  | _ => exact ⟨unwritten, rfl⟩

theorem Steps.unrecorded (steps : Steps warrant before after)
    (unwritten : after.link.record = none) :
    before.link.record = none ∧ after.farewells = before.farewells := by
  induction steps with
  | refl => exact ⟨unwritten, rfl⟩
  | tail _ step inductionHypothesis =>
      have last := step.unrecorded unwritten
      have earlier := inductionHypothesis last.1
      exact ⟨earlier.1, last.2.trans earlier.2⟩

/-- A clean disconnect that joins the line as the first took the next number and wrote the record. -/
theorem Steps.first_cases (steps : Steps warrant before after) {farewell : Farewell}
    (member : .farewell farewell true ∈ after.turns) :
    .farewell farewell true ∈ before.turns ∨
      before.link.record = none ∧ warrant.leaves farewell.reason ∧
        farewell.number = before.farewells := by
  induction steps with
  | refl => exact .inl member
  | tail earlier step inductionHypothesis =>
      rcases step.farewell_cases member with waited | ⟨number, -, first, leaves⟩
      · exact inductionHypothesis waited
      · have unwritten := Option.isNone_iff_eq_none.mp first.symm
        obtain ⟨start, same⟩ := Steps.unrecorded earlier unwritten
        exact .inr ⟨start, leaves unwritten, number.trans same⟩

/-- The clean disconnect of a number was asked for with a reason, and wrote the record. -/
structure Numbered (number : Nat) (reason : DisconnectReason) (state : Departure) : Prop where
  taken : number < state.farewells
  only : ∀ farewell first, .farewell farewell first ∈ state.turns → farewell.number = number →
    farewell.reason = reason ∧ first = true

theorem Step.numbered (step : Step warrant before after) {number : Nat}
    {reason : DisconnectReason} (numbered : before.Numbered number reason) :
    after.Numbered number reason where
  taken := Nat.lt_of_lt_of_le numbered.taken step.farewells_le
  only := by
    intro farewell first member equal
    rcases step.farewell_cases member with waited | ⟨next, -⟩
    · exact numbered.only farewell first waited equal
    · exact absurd (next.symm.trans equal) (Nat.ne_of_gt numbered.taken)

/-- The numbers in the line have been given out. -/
def Counted (state : Departure) : Prop :=
  ∀ farewell first, .farewell farewell first ∈ state.turns → farewell.number < state.farewells

theorem Step.counted (step : Step warrant before after) (counted : before.Counted) :
    after.Counted := by
  intro farewell first member
  rcases step.farewell_cases member with waited | ⟨next, taken, -⟩
  · exact Nat.lt_of_lt_of_le (counted farewell first waited) step.farewells_le
  · omega

end Steps

end Departure

/-! ## Histories -/

/-- The next turn is that of the clean disconnect of this number. -/
def BeginsFarewell (peer : Peer) (number : Nat) : Prop :=
  ∃ farewell first, peer.line.head? = some (.farewell farewell first) ∧ farewell.number = number

/-- A history in which a clean request, direct or by a verdict, writes the record for this reason,
and later has its turn while this handler is installed. -/
def Invited (start : Peer) (moves : List Move) (handler : GoodbyeHandler)
    (reason : DisconnectReason) : Prop :=
  ∃ earlier call between clock later,
    moves = earlier ++ call :: between ++ .turn clock :: later ∧
      (start.play earlier).link.record = none ∧
      (start.play earlier).AsksCleanly reason call ∧
      (start.play (earlier ++ call :: between)).BeginsFarewell (start.play earlier).farewells ∧
      (start.play (earlier ++ call :: between)).handler = some handler

section Histories

variable {start : Peer} {closed : Bool}

theorem saysOnce_play (isFresh : start.departure = .fresh closed) (moves : List Move) :
    (start.play moves).departure.SaysOnce := by
  refine play_preserves Departure.Step.saysOnce ?_ ?_ moves
  · rw [isFresh]
    exact Departure.sound_fresh closed
  · rw [isFresh]
    exact Departure.saysOnce_fresh closed

/-- A clean disconnect that waits as the first was asked for when nothing was recorded. -/
theorem asked_of_waiting (isFresh : start.departure = .fresh closed) (moves : List Move)
    {farewell : Farewell}
    (waits : .farewell farewell true ∈ (start.play moves).departure.turns) :
    ∃ earlier call between, moves = earlier ++ call :: between ∧
      (start.play earlier).link.record = none ∧
      (start.play earlier).AsksCleanly farewell.reason call ∧
      farewell.number = (start.play earlier).farewells := by
  induction moves using List.reverseRecOn with
  | nil =>
      rw [play_nil, isFresh] at waits
      cases List.mem_singleton.mp waits
  | append_singleton moves move inductionHypothesis =>
      have sound := sound_play (isFresh ▸ Departure.sound_fresh closed) moves
      have steps := steps_of_sound sound move
      rw [play_append, play_cons, play_nil] at waits
      rcases steps.first_cases waits with waited | ⟨unwritten, asks, number⟩
      · obtain ⟨earlier, call, between, rfl, rest⟩ := inductionHypothesis waited
        exact ⟨earlier, call, between ++ [move], by simp, rest⟩
      · exact ⟨moves, move, [], rfl, unwritten, asks, number⟩

theorem invited_of_asked (isFresh : start.departure = .fresh closed) (moves : List Move)
    {handler : GoodbyeHandler} {reason : DisconnectReason}
    (asked : .goodbyeAsked handler reason ∈ (start.play moves).departure.notes) :
    start.Invited moves handler reason := by
  induction moves using List.reverseRecOn with
  | nil =>
      rw [play_nil, isFresh] at asked
      cases asked
  | append_singleton moves move inductionHypothesis =>
      have sound := sound_play (isFresh ▸ Departure.sound_fresh closed) moves
      have steps := steps_of_sound sound move
      rw [play_append, play_cons, play_nil] at asked
      rcases steps.allowed asked with before | ⟨⟨clock, rfl⟩, installed, farewell, rest, line, rfl⟩
      · obtain ⟨earlier, call, between, clock, later, rfl, rest⟩ := inductionHypothesis before
        exact ⟨earlier, call, between, clock, later ++ [move], by simp, rest⟩
      · have waits : .farewell farewell true ∈ (start.play moves).departure.turns :=
          List.mem_filter.mpr ⟨by rw [line]; exact List.mem_cons_self, rfl⟩
        obtain ⟨earlier, call, between, rfl, unwritten, asks, number⟩ :=
          asked_of_waiting isFresh moves waits
        exact ⟨earlier, call, between, clock, [], rfl, unwritten, asks,
          ⟨farewell, true, by rw [line]; rfl, number⟩, installed⟩

/-- The request that wrote the record keeps its number, its reason and its being the first. -/
theorem numbered_of_asks (isFresh : start.departure = .fresh closed) {earlier : List Move}
    (between : List Move) {call : Move} {reason : DisconnectReason}
    (unwritten : (start.play earlier).link.record = none)
    (asks : (start.play earlier).AsksCleanly reason call) :
    (start.play (earlier ++ call :: between)).departure.Numbered
      (start.play earlier).farewells reason := by
  have freshSound : start.departure.Sound := isFresh ▸ Departure.sound_fresh closed
  have freshCounted : start.departure.Counted := by
    intro farewell first member
    rw [isFresh] at member
    cases List.mem_singleton.mp member
  have sound := sound_play freshSound earlier
  have counted := play_preserves Departure.Step.counted freshSound freshCounted earlier
  rw [play_append, play_cons]
  refine play_preserves (fun step numbered => step.numbered numbered)
    ((steps_of_sound sound call).sound sound) ?_ between
  rw [departure_of_asksCleanly asks, departure_disconnectCleanly]
  refine ⟨Nat.lt_succ_self _, fun farewell first member number => ?_⟩
  rcases List.mem_append.mp member with waited | added
  · exact absurd number (Nat.ne_of_lt (counted farewell first waited))
  · obtain ⟨rfl, rfl⟩ := Turn.farewell.inj (List.mem_singleton.mp added)
    exact ⟨rfl, by simp [unwritten]⟩

/-- The turn of the clean disconnect that wrote the record asks the handler that is installed. -/
theorem asked_turn {peer : Peer} {farewell : Farewell} {handler : GoodbyeHandler} (clock : Clock)
    (next : peer.line.head? = some (.farewell farewell true))
    (installed : peer.handler = some handler) :
    .goodbyeAsked handler farewell.reason ∈ (peer.move (.turn clock)).departure.notes := by
  obtain ⟨rest, line⟩ := List.head?_eq_some_iff.mp next
  have goesOn := steps_afterAsking (peer.warrant (.turn clock)) { peer with line := rest } clock
    farewell installed
  have taken : peer.move (.turn clock) =
      { peer with line := rest }.beginFarewell clock farewell true := by
    simp [Peer.move, advance?, line, take]
  rw [taken]
  refine goesOn.extends.notes.subset ?_
  simp [departure, Peer.note, Note.isDeparture]

theorem asked_of_invited (isFresh : start.departure = .fresh closed) {moves : List Move}
    {handler : GoodbyeHandler} {reason : DisconnectReason}
    (invited : start.Invited moves handler reason) :
    .goodbyeAsked handler reason ∈ (start.play moves).departure.notes := by
  obtain ⟨earlier, call, between, clock, later, rfl, unwritten, asks,
    ⟨farewell, first, next, number⟩, installed⟩ := invited
  have numbered := numbered_of_asks isFresh between unwritten asks
  have sound := sound_play (isFresh ▸ Departure.sound_fresh closed) (earlier ++ call :: between)
  have waits : .farewell farewell first ∈
      (start.play (earlier ++ call :: between)).departure.turns :=
    List.mem_filter.mpr ⟨List.mem_of_mem_head? (by rw [next]; rfl), rfl⟩
  obtain ⟨rfl, rfl⟩ := numbered.only farewell first waits number
  rw [play_append, play_cons]
  refine (extends_play ((steps_of_sound sound _).sound sound) later).notes.subset ?_
  exact asked_turn clock next installed

end Histories

theorem mem_departure_notes {peer : Peer} {handler : GoodbyeHandler} {reason : DisconnectReason} :
    .goodbyeAsked handler reason ∈ peer.departure.notes ↔
      .goodbyeAsked handler reason ∈ peer.account := by
  simp [departure, Note.isDeparture]

/-- A handler is asked to say goodbye at most once. It is asked exactly by the turn of the clean
disconnect whose request wrote the record, and for the reason that is recorded. -/
theorem goodbye_asked_once (settings : Settings) (address : PeerAddress) (publicKey : String)
    (dialled : Bool) (connection : Connection) (delegates : List Rpc.Delegate)
    (moves : List Move) :
    let start := create settings address publicKey dialled connection delegates
    let peer := start.play moves
    (peer.account.filterMap Note.invited?).length ≤ 1 ∧
      ∀ handler reason,
        (.goodbyeAsked handler reason ∈ peer.account ↔ start.Invited moves handler reason) ∧
        (.goodbyeAsked handler reason ∈ peer.account →
          peer.link.record = some ⟨some reason, true⟩) := by
  intro start peer
  have isFresh : start.departure = .fresh connection.closed := departure_create _ _ _ _ _ _
  have kept : peer.departure.SaysOnce := by
    refine play_preserves Departure.Step.saysOnce ?_ ?_ moves
    · rw [isFresh]
      exact Departure.sound_fresh _
    · rw [isFresh]
      exact Departure.saysOnce_fresh _
  refine ⟨?_, fun handler reason => ⟨⟨fun asked => ?_, fun invited => ?_⟩, fun asked => ?_⟩⟩
  · have once := kept.once
    rw [Departure.invitations, List.length_append] at once
    rw [← filterMap_kind Note.isDeparture fun _ _ => Note.isDeparture_of_invited?]
    exact Nat.le_trans (Nat.le_add_right _ _) once
  · exact invited_of_asked isFresh moves (mem_departure_notes.mpr asked)
  · exact mem_departure_notes.mp (asked_of_invited isFresh invited)
  · refine kept.recorded reason (List.mem_append_left _ ?_)
    exact List.mem_filterMap.mpr ⟨_, mem_departure_notes.mpr asked, rfl⟩

end PeerLink.Peer
