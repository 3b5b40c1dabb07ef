import Mathlib.Data.List.Induction
import PeerLink.Proofs.Peer.Closes

/-!
Contract: which moves record a departure.

A departure is recorded by a request to disconnect from outside, direct or by a verdict, or by the
turn in which the watcher finds the connection closed. Observers ask to disconnect as well, and a
clean disconnect ends with an immediate one. These come too late to record anything: observers are
called once the close is announced, and a clean disconnect is under way only after it was asked for.

Owns: recording events, what each leaves behind, and that the first one of a history fixes the
record.

Does not own: what else agrees with the record.
-/

namespace PeerLink.Peer

/-! ## Recording events -/

/-- An occasion to record a departure. -/
structure RecordingEvent where
  /-- What is recorded, unless something was recorded before. -/
  record : DisconnectRecord
  report : Occurrence
deriving DecidableEq, Repr

/-- A request to disconnect is reported as it was made, whatever was recorded before. -/
def RecordingEvent.request (record : DisconnectRecord) (clean : Bool) : RecordingEvent where
  record := record
  report := .disconnectRequested record clean

/-- The recording event of a move: a request to disconnect, direct or by a verdict, or the turn in
which the watcher finds the connection closed. -/
def recordingEvent? (peer : Peer) : Move → Option RecordingEvent
  | .disconnectImmediately record => some (.request record false)
  | .disconnectCleanly reason => some (.request ⟨some reason, true⟩ true)
  | .adjust authority now adjustment =>
      if (authority.judge now peer.address adjustment).verdict = .disconnect then
        some (.request ⟨some .remoteFault, true⟩ true)
      else none
  | .turn _ =>
      if peer.line.head? = some .watch ∧ peer.connection.closed = true then
        some ⟨.remoteClose, .connectionClosed (peer.link.record.getD .remoteClose)⟩
      else none
  | _ => none

/-- The recording events of a history, in order. -/
def recordingEvents (peer : Peer) : List Move → List RecordingEvent
  | [] => []
  | move :: rest => (peer.recordingEvent? move).toList ++ (peer.move move).recordingEvents rest

theorem recordingEvents_append (peer : Peer) (earlier later : List Move) :
    peer.recordingEvents (earlier ++ later) =
      peer.recordingEvents earlier ++ (peer.play earlier).recordingEvents later := by
  induction earlier generalizing peer with
  | nil => rfl
  | cons move rest inductionHypothesis =>
      rw [List.cons_append, recordingEvents, recordingEvents, inductionHypothesis, play_cons,
        List.append_assoc]

/-! ## What a recording event leaves behind -/

/-- After a recording event there is a record, and the event is reported. Nothing that is noted in
the same move before this report tells of a record. -/
structure Recorded (event : RecordingEvent) (before after : Peer) : Prop where
  written : after.link.record = some (before.link.record.getD event.record)
  reported : ∃ earlier later,
    after.account = before.account ++ earlier ++ .emitted event.report :: later ∧
      ∀ note ∈ earlier, note.recorded? = none

/-- A record is written, and the account goes on from this one. -/
structure Stands (record : DisconnectRecord) (account : List Note) (peer : Peer) : Prop where
  written : peer.link.record = some record
  noted : account <+: peer.account

section Events

variable {record : DisconnectRecord} {account : List Note}

theorem Stands.note {peer : Peer} (stands : Stands record account peer) (note : Note) :
    Stands record account (peer.note note) where
  written := stands.written
  noted := stands.noted.trans (List.prefix_append _ _)

theorem Stands.keptByObservers : KeptByObservers (Stands record account) where
  registry _ stands := ⟨stands.written, stands.noted⟩
  notified _ _ _ stands := stands.note _
  reacted _ _ _ _ stands := stands.note _
  disconnected _ _ stands := by
    refine Stands.note ⟨?_, stands.noted.trans ?_⟩ _
    · simp [disconnectImmediately, emit, Peer.note, enlist, stands.written]
    · exact List.prefix_append _ _
  disconnectedCleanly _ _ stands := by
    refine Stands.note ⟨?_, stands.noted.trans ?_⟩ _
    · simp [disconnectCleanly, emit, Peer.note, enlist, stands.written]
    · exact List.prefix_append _ _

variable (peer : Peer)

theorem recorded_disconnectImmediately (record : DisconnectRecord) :
    Recorded (.request record false) peer (peer.disconnectImmediately record) where
  written := by simp [disconnectImmediately, emit, Peer.note, enlist, RecordingEvent.request]
  reported := by
    refine ⟨[], [], ?_, List.forall_mem_nil _⟩
    simp [disconnectImmediately, emit, Peer.note, enlist, RecordingEvent.request]

theorem recorded_disconnectCleanly (reason : DisconnectReason) :
    Recorded (.request ⟨some reason, true⟩ true) peer (peer.disconnectCleanly reason).2 where
  written := by simp [disconnectCleanly, emit, Peer.note, enlist, RecordingEvent.request]
  reported := by
    refine ⟨[], [], ?_, List.forall_mem_nil _⟩
    simp [disconnectCleanly, emit, Peer.note, enlist, RecordingEvent.request]

theorem recorded_adjust {authority : Authority} {now : Reputation.Instant}
    {adjustment : Reputation.Adjustment}
    (drops : (authority.judge now peer.address adjustment).verdict = .disconnect) :
    Recorded (.request ⟨some .remoteFault, true⟩ true) peer
      (peer.adjust authority now adjustment) := by
  let judged := (authority.judge now peer.address adjustment).notes
  let reported := (peer.noteAll judged).emit (.reputationDisconnect adjustment)
  have unwritten : ∀ note ∈ judged, note.recorded? = none := forall_mem_judge rfl fun _ => rfl
  obtain ⟨written, earlier, later, account, silent⟩ :=
    reported.recorded_disconnectCleanly .remoteFault
  rw [adjust_eq_disconnectCleanly drops]
  refine ⟨written, judged ++ [.emitted (.reputationDisconnect adjustment)] ++ earlier, later,
    ?_, ?_⟩
  · rw [account]
    simp [reported, emit, Peer.note, noteAll]
  · intro note member
    simp only [List.mem_append, List.mem_singleton] at member
    rcases member with (judgement | rfl) | before
    · exact unwritten note judgement
    · rfl
    · exact silent note before

/-- The watcher finds the connection closed. What observers do then changes no record. -/
theorem recorded_watch {rest : List Turn} (closed : peer.connection.closed = true) :
    Recorded ⟨.remoteClose, .connectionClosed (peer.link.record.getD .remoteClose)⟩ peer
      { peer with line := rest }.watch := by
  let final := peer.link.record.getD .remoteClose
  let seen : Peer := { peer with
    line := rest
    link := peer.link.markClosed.2
    watcher := .ended }.emit (.connectionClosed final)
  have watched : { peer with line := rest }.watch = seen.announce final := by
    simp [watch, closed, seen, final]
  have told : Stands final seen.account (seen.announce final) :=
    Stands.keptByObservers.announce final
      ⟨by simp [seen, final, emit, Peer.note], List.prefix_rfl⟩
  obtain ⟨later, account⟩ := told.noted
  rw [watched]
  refine ⟨told.written, [], later, ?_, List.forall_mem_nil _⟩
  rw [← account]
  simp [seen, final, emit, Peer.note]

/-- The move of a recording event leaves a record and the report of the event. -/
theorem recorded_move {move : Move} {event : RecordingEvent}
    (isEvent : peer.recordingEvent? move = some event) : Recorded event peer (peer.move move) := by
  cases move with
  | disconnectImmediately record =>
      obtain rfl := Option.some.inj isEvent
      exact peer.recorded_disconnectImmediately record
  | disconnectCleanly reason =>
      obtain rfl := Option.some.inj isEvent
      exact peer.recorded_disconnectCleanly reason
  | adjust authority now adjustment =>
      obtain ⟨drops, equal⟩ := Option.ite_none_right_eq_some.mp isEvent
      obtain rfl := Option.some.inj equal
      exact peer.recorded_adjust drops
  | turn clock =>
      obtain ⟨⟨next, closed⟩, equal⟩ := Option.ite_none_right_eq_some.mp isEvent
      obtain rfl := Option.some.inj equal
      obtain ⟨rest, line⟩ := List.head?_eq_some_iff.mp next
      rw [move_turn_of_cons line]
      exact peer.recorded_watch closed
  | _ => cases isEvent

end Events

/-! ## Nothing else records -/

/-- Whether a change of this aspect shows in the link. -/
def Aspect.inLink : Aspect → Bool
  | .request => true
  | _ => false

section Untouched

variable {before after : Peer}

theorem Change.link_eq {aspect : Aspect} (change : Change before aspect after)
    (unseen : aspect.inLink = false) : after.link = before.link := by
  cases change with
  | link => cases unseen
  | _ => rfl

theorem ChangesOnly.link_eq {aspects : List Aspect} (changes : before.ChangesOnly aspects after)
    (unseen : aspects.any Aspect.inLink = false) : after.link = before.link :=
  changes.view_eq Change.link_eq unseen

end Untouched

/-- A turn that neither begins nor ends a clean disconnect. -/
def Turn.NoFarewell (turn : Turn) : Prop := turn.errand? = none ∨ turn.errand? = some .close

section Eventless

variable {peer : Peer}

/-- An observer that is subscribed before the announcement is not called. -/
theorem link_subscribe (unannounced : peer.observers.announced? = none) (observer : Observer) :
    (peer.subscribe observer).2.link = peer.link := by
  unfold subscribe
  cases subscribed : peer.observers.subscribe? observer with
  | none => rfl
  | some entry =>
      obtain ⟨id, observers⟩ := entry
      have still := (Registry.announced?_subscribe? subscribed).trans unannounced
      simp [still]

theorem link_turn (noFarewell : ∀ turn ∈ peer.line, turn.NoFarewell) {clock : Clock}
    (eventless : peer.recordingEvent? (.turn clock) = none) :
    (peer.move (.turn clock)).link = peer.link := by
  cases line : peer.line with
  | nil => rw [move_turn_of_nil line]
  | cons turn rest =>
      have errand := noFarewell turn (line ▸ List.mem_cons_self)
      rw [move_turn_of_cons line]
      cases turn with
      | watch =>
          have isOpen : peer.connection.closed = false := by
            simpa [recordingEvent?, line] using eventless
          simp [take, watch, isOpen]
      | close => exact (changes_close _).link_eq rfl
      | farewell | goodbyeTold => simp [Turn.NoFarewell, Turn.errand?] at errand
      | goodbye reason timeoutMs => exact (changes_beginGoodbye _ clock reason timeoutMs).link_eq rfl
      | goodbyeDue exchange =>
          have outside : exchange.caller = .outside := by
            cases caller : exchange.caller with
            | farewell number =>
                simp [Turn.NoFarewell, Turn.errand?, caller, GoodbyeCaller.number?] at errand
            | outside => rfl
          obtain ⟨logged, changes, resumed⟩ :=
            resumeExchange_cases { peer with line := rest } exchange
          rw [take, resumed, outside, (changes_concludeOutside _ _ _).link_eq rfl,
            changes.link_eq rfl]
      | identify inquirer => exact (changes_identify _ inquirer).link_eq rfl
      | identified held => exact (changes_concludeIdentify _ _ _).link_eq rfl
      | call call => exact (changes_makeCall _ call).link_eq rfl
      | callTold call outcome => exact (changes_tellCall _ call outcome).link_eq rfl

theorem link_move (unannounced : peer.observers.announced? = none)
    (noFarewell : ∀ turn ∈ peer.line, turn.NoFarewell) {move : Move}
    (eventless : peer.recordingEvent? move = none) : (peer.move move).link = peer.link := by
  cases move with
  | subscribe observer => exact link_subscribe unannounced observer
  | disconnectImmediately | disconnectCleanly => cases eventless
  | adjust authority now adjustment =>
      have keeps : (authority.judge now peer.address adjustment).verdict ≠ .disconnect := by
        simpa [recordingEvent?] using eventless
      rw [Peer.move, adjust_eq_noteAll keeps, noteAll]
  | send method body sink => exact (peer.changes_send method body sink).link_eq rfl
  | checkIdentity => exact peer.changes_checkIdentity.link_eq rfl
  | remoteClose => exact peer.changes_closeConnection.link_eq rfl
  | releaseIdentify => exact peer.changes_releaseIdentify.link_eq rfl
  | tellCall start outcome => exact (peer.changes_tellOpenCall start outcome).link_eq rfl
  | tellGoodbye outcome => exact (peer.changes_tellGoodbye outcome).link_eq rfl
  | wake ticket => exact (peer.changes_wakeExchange ticket).link_eq rfl
  | turn clock => exact link_turn noFarewell eventless
  | unsubscribe | setHandler | installGoodbye | lookUpAgent | askGoodbye | prepareIdentify
  | cutStream | hold => rfl

end Eventless

/-! ## Along a history -/

namespace Departure

/-- Clean disconnects are counted only once something is recorded. -/
def CountsRecorded (state : Departure) : Prop := state.link.record = none → state.farewells = 0

theorem Step.countsRecorded {warrant : Warrant} {before after : Departure}
    (step : Step warrant before after) (counts : before.CountsRecorded) : after.CountsRecorded := by
  intro unwritten
  obtain ⟨earlier, same⟩ := step.unrecorded unwritten
  rw [same]
  exact counts earlier

end Departure

section History

variable {start : Peer} {closed : Bool} {accepted : Nat}

/-- As long as nothing is recorded, no clean disconnect was asked for, so none stands in the line. -/
theorem noFarewell_of_unrecorded (isFresh : start.departure = .fresh closed)
    (isBlank : start.books {} = .fresh start.address accepted) {moves : List Move}
    (unwritten : (start.play moves).link.record = none) :
    ∀ turn ∈ (start.play moves).line, turn.NoFarewell := by
  let books := (start.play moves).books (callsOf start.address moves)
  have counts : (start.play moves).departure.CountsRecorded := by
    refine play_preserves Departure.Step.countsRecorded ?_ ?_ moves
    · rw [isFresh]
      exact Departure.sound_fresh closed
    · rw [isFresh]
      exact fun _ => rfl
  have placed : books.Placed := by
    have booked := start.booked_play moves {}
    rw [isBlank] at booked
    exact (booked.balanced (Books.balanced_fresh _ _)).placed
  have nobody : books.farewells = 0 := counts unwritten
  have places := placed.places
  rw [nobody, List.range_zero, List.perm_nil] at places
  simp only [Books.waiting, Books.underWay, List.append_eq_nil_iff] at places
  obtain ⟨⟨noneBegins, ⟨noneEnds, -⟩, -⟩, -⟩ := places
  intro turn member
  cases found : turn.errand? with
  | none => exact .inl found
  | some errand =>
      have listed : errand ∈ books.errands := List.mem_filterMap.mpr ⟨turn, member, found⟩
      cases errand with
      | close => exact .inr found
      | begins number => exact absurd (noneBegins ▸ mem_beginnings listed) List.not_mem_nil
      | ends number => exact absurd (noneEnds ▸ mem_endings listed) List.not_mem_nil

/-- A move records what its event says, unless something is recorded, and otherwise nothing. -/
theorem record_move (isFresh : start.departure = .fresh closed)
    (isBlank : start.books {} = .fresh start.address accepted) (moves : List Move) (move : Move) :
    ((start.play moves).move move).link.record =
      (start.play moves).link.record.or
        (((start.play moves).recordingEvent? move).map RecordingEvent.record) := by
  have sound := sound_play (isFresh ▸ Departure.sound_fresh closed) moves
  cases found : (start.play moves).recordingEvent? move with
  | some event =>
      rw [(recorded_move _ found).written]
      cases (start.play moves).link.record <;> rfl
  | none =>
      cases written : (start.play moves).link.record with
      | some record => exact (steps_of_sound sound move).extends.record record written
      | none =>
          have unannounced : (start.play moves).observers.announced? = none := by
            have announced := sound.announced
            rw [show (start.play moves).departure.link.record = none from written, ite_self]
              at announced
            exact announced
          have noFarewell := noFarewell_of_unrecorded isFresh isBlank written
          rw [link_move unannounced noFarewell found, written]
          rfl

/-- What is recorded is what the first recording event of the history says. -/
theorem record_play (isFresh : start.departure = .fresh closed)
    (isBlank : start.books {} = .fresh start.address accepted) (moves : List Move) :
    (start.play moves).link.record =
      (start.recordingEvents moves).head?.map RecordingEvent.record := by
  induction moves using List.reverseRecOn with
  | nil => exact congrArg (fun state : Departure => state.link.record) isFresh
  | append_singleton moves move inductionHypothesis =>
      rw [play_append, play_cons, play_nil, record_move isFresh isBlank, inductionHypothesis,
        recordingEvents_append, List.head?_append, recordingEvents, recordingEvents]
      cases (start.recordingEvents moves).head? <;>
        cases (start.play moves).recordingEvent? move <;> rfl

end History

end PeerLink.Peer
