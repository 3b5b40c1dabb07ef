import Mathlib.Data.List.Basic
import PeerLink.Proofs.Peer.Leaving

/-!
Contract: what is recorded of a departure, what is reported of it, and what observers are told.

The record, the report of the close and the record handed to observers are kept in three places.
`Departure.Sound` is the invariant that ties them together: the watcher is in one place at a time,
it reports the close when it ends, and from then on the announced record is the one written first.

Owns: the invariant, its preservation by every step and so along every history, what lasts along a
history, and what a warrant allows to be noted.

Does not own: what the invariant means for the peer as a whole, and the goodbye.
-/

namespace PeerLink.Peer

/-! ## What notes say about the record -/

/-- The record that is written on the occasion of a note, unless one was written before. -/
def Note.recorded? : Note → Option DisconnectRecord
  | emitted (.disconnectRequested record _) => some record
  | emitted (.connectionClosed _) => some .remoteClose
  | _ => none

/-- The record that a note hands on: to an observer, or with the report of the close. -/
def Note.told? : Note → Option DisconnectRecord
  | emitted (.connectionClosed record) | notified _ _ record => some record
  | _ => none

def Note.isClose : Note → Bool
  | emitted (.connectionClosed _) => true
  | _ => false

theorem Note.isDeparture_of_recorded? {note : Note} {record : DisconnectRecord}
    (recorded : note.recorded? = some record) : note.isDeparture = true := by
  unfold recorded? at recorded
  split at recorded
  · rfl
  · rfl
  · cases recorded

theorem Note.isDeparture_of_told? {note : Note} {record : DisconnectRecord}
    (told : note.told? = some record) : note.isDeparture = true := by
  unfold told? at told
  split at told
  · rfl
  · rfl
  · cases told

theorem Note.isDeparture_of_isClose {note : Note} (isClose : note.isClose = true) :
    note.isDeparture = true := by
  unfold Note.isClose at isClose
  split at isClose
  · rfl
  · cases isClose

/-- What a note takes to be made. -/
def Warrant.Allows (warrant : Warrant) : Note → Prop
  | .emitted (.connectionClosed _) | .notified _ _ _ => warrant.tells
  | .goodbyeAsked handler reason => warrant.asks handler reason
  | _ => True

/-- What is read from an account, and only from notes of one kind. -/
theorem filterMap_kind {β : Type} (kind : Note → Bool) {read : Note → Option β}
    (within : ∀ note value, read note = some value → kind note = true) (account : List Note) :
    (account.filter kind).filterMap read = account.filterMap read := by
  rw [List.filterMap_filter]
  refine List.filterMap_congr fun note _ => ?_
  cases value : read note with
  | none => exact ite_self _
  | some value => exact if_pos (within note _ ‹_›)

/-! ## The invariant -/

namespace Departure

structure Sound (state : Departure) : Prop where
  connected : state.link.connected = state.link.record.isNone
  recorded : state.link.record = state.notes.findSome? Note.recorded?
  watching : state.turns.count .watch = if state.watcher = .inLine then 1 else 0
  waiting : state.watcher = .waiting → state.closed = false
  ended : state.watcher = .ended → state.closed = true ∧ state.link.record ≠ none
  reported : state.notes.countP Note.isClose = if state.watcher = .ended then 1 else 0
  announced : state.observers.announced? =
    if state.watcher = .ended then state.link.record else none
  told : ∀ note ∈ state.notes, ∀ record, note.told? = some record →
    state.watcher = .ended ∧ state.link.record = some record

/-- The departure of a peer over a fresh connection. -/
def fresh (closed : Bool) : Departure where
  link := {}
  closed := closed
  watcher := .inLine
  observers := {}
  farewells := 0
  turns := [.watch]
  notes := []

theorem sound_fresh (closed : Bool) : (fresh closed).Sound where
  connected := rfl
  recorded := rfl
  watching := rfl
  waiting := nofun
  ended := nofun
  reported := rfl
  announced := rfl
  told := nofun

section Preservation

variable {state : Departure}

/-- An announced record is the one that was written, and the watcher has ended. -/
theorem Sound.of_announced (sound : state.Sound) {record : DisconnectRecord}
    (announced : state.observers.announced? = some record) :
    state.watcher = .ended ∧ state.link.record = some record := by
  rw [sound.announced] at announced
  split at announced
  · rename_i ended
    exact ⟨ended, announced⟩
  · cases announced

/-- When the watcher's turn comes, it is nowhere else. -/
theorem Sound.of_watch (sound : state.Sound) {rest : List Turn}
    (turns : state.turns = .watch :: rest) :
    state.watcher = .inLine ∧ rest.count .watch = 0 := by
  have watching := sound.watching
  rw [turns, List.count_cons_self] at watching
  split at watching
  · rename_i inLine
    exact ⟨inLine, by omega⟩
  · omega

theorem Sound.with_turns (sound : state.Sound) (turns : List Turn) (farewells : Nat)
    (same : turns.count .watch = state.turns.count .watch) :
    { state with turns := turns, farewells := farewells }.Sound :=
  { sound with watching := same.trans sound.watching }

theorem Sound.with_observers (sound : state.Sound) (observers : Registry Observer)
    (same : observers.announced? = state.observers.announced?) :
    { state with observers := observers }.Sound :=
  { sound with announced := same.trans sound.announced }

/-- A note that neither writes nor hands on a record. -/
theorem Sound.with_note (sound : state.Sound) {note : Note} (recorded : note.recorded? = none)
    (isClose : note.isClose = false)
    (told : ∀ record, note.told? = some record →
      state.watcher = .ended ∧ state.link.record = some record) :
    { state with notes := state.notes ++ [note] }.Sound where
  connected := sound.connected
  recorded := by
    rw [List.findSome?_append, ← sound.recorded]
    simp [recorded]
  watching := sound.watching
  waiting := sound.waiting
  ended := sound.ended
  reported := by
    rw [List.countP_append, sound.reported]
    simp [isClose]
  announced := sound.announced
  told := by
    intro other member
    rcases List.mem_append.mp member with earlier | added
    · exact sound.told other earlier
    · rw [List.mem_singleton.mp added]
      exact told

/-- A request to disconnect, of either kind. -/
theorem Sound.request (sound : state.Sound) (record : DisconnectRecord) (clean : Bool) :
    { state with
      link := (state.link.recordDisconnect record).2
      notes := state.notes ++ [Note.emitted (.disconnectRequested record clean)] }.Sound where
  connected := by simp
  recorded := by
    rw [List.findSome?_append, ← sound.recorded]
    cases written : state.link.record <;> simp [written, Note.recorded?]
  watching := sound.watching
  waiting := sound.waiting
  ended := fun ended => ⟨(sound.ended ended).1, by simp⟩
  reported := by
    rw [List.countP_append, sound.reported]
    simp [Note.isClose]
  announced := by
    rw [sound.announced]
    by_cases ended : state.watcher = .ended
    · obtain ⟨written, equal⟩ := Option.ne_none_iff_exists'.mp (sound.ended ended).2
      simp [ended, equal]
    · simp [ended]
  told := by
    intro note member handed told
    rcases List.mem_append.mp member with earlier | added
    · obtain ⟨ended, equal⟩ := sound.told note earlier handed told
      exact ⟨ended, by simp [equal]⟩
    · rw [List.mem_singleton.mp added] at told
      cases told

/-- The watcher finds the connection open. -/
theorem Sound.look (sound : state.Sound) {rest : List Turn} (turns : state.turns = .watch :: rest)
    (isOpen : state.closed = false) :
    { state with turns := rest, watcher := .waiting }.Sound := by
  obtain ⟨inLine, none⟩ := sound.of_watch turns
  have reported := sound.reported
  have announced := sound.announced
  simp only [inLine, reduceCtorEq, ↓reduceIte] at reported announced
  exact
    { connected := sound.connected
      recorded := sound.recorded
      watching := none
      waiting := fun _ => isOpen
      ended := nofun
      reported := reported
      announced := announced
      told := by
        intro note member record told
        have ended := (sound.told note member record told).1
        rw [inLine] at ended
        cases ended }

/-- The watcher finds the connection closed. Nothing was reported or announced before. -/
theorem Sound.see (sound : state.Sound) {rest : List Turn} (turns : state.turns = .watch :: rest)
    (isClosed : state.closed = true) :
    { state with
      turns := rest
      watcher := .ended
      link := state.link.markClosed.2
      notes := state.notes ++ [Note.emitted (.connectionClosed state.link.markClosed.1)]
      observers := (state.observers.announce? state.link.markClosed.1).elim state.observers
        Prod.snd }.Sound := by
  obtain ⟨inLine, none⟩ := sound.of_watch turns
  have reported := sound.reported
  have unannounced := sound.announced
  simp only [inLine, reduceCtorEq, ↓reduceIte] at reported unannounced
  exact
    { connected := by simp
      recorded := by
        rw [List.findSome?_append, ← sound.recorded]
        cases written : state.link.record <;> simp [written, Note.recorded?]
      watching := none
      waiting := nofun
      ended := fun _ => ⟨isClosed, by simp⟩
      reported := by
        rw [List.countP_append, reported]
        rfl
      announced := by
        cases announces : state.observers.announce? state.link.markClosed.1 with
        | none =>
            unfold Registry.announce? at announces
            unfold Registry.announced? at unannounced
            split at announces <;> simp_all
        | some entry =>
            rw [Option.elim_some, Registry.announced?_announce? announces]
            simp
      told := by
        intro note member record told
        refine ⟨rfl, ?_⟩
        rcases List.mem_append.mp member with earlier | added
        · have ended := (sound.told note earlier record told).1
          rw [inLine] at ended
          cases ended
        · rw [List.mem_singleton.mp added] at told
          cases told
          simp }

theorem Step.sound {warrant : Warrant} {before after : Departure}
    (step : Step warrant before after) (sound : before.Sound) : after.Sound := by
  cases step with
  | requestsNow record => exact sound.request record false
  | requestsCleanly reason warranted =>
      refine (sound.request ⟨some reason, true⟩ true).with_turns _ _ ?_
      simp
  | closesWatched isWaiting =>
      have watching := sound.watching
      have reported := sound.reported
      have announced := sound.announced
      simp only [isWaiting, reduceCtorEq, ↓reduceIte] at watching reported announced
      exact
        { sound with
          watching := by rw [List.count_append, watching]; rfl
          waiting := nofun
          ended := nofun
          reported := reported
          announced := announced
          told := by
            intro note member record told
            have ended := (sound.told note member record told).1
            rw [isWaiting] at ended
            cases ended }
  | closesUnwatched notWaiting =>
      exact
        { sound with
          waiting := fun isWaiting => absurd isWaiting notWaiting
          ended := fun ended => ⟨rfl, (sound.ended ended).2⟩ }
  | looks rest turns isOpen => exact sound.look turns isOpen
  | sees rest turns isClosed warranted => exact sound.see turns isClosed
  | subscribes observer id observers subscribed =>
      exact sound.with_observers _ (Registry.announced?_subscribe? subscribed)
  | unsubscribes id => exact sound.with_observers _ (Registry.announced?_unsubscribe _ id)
  | notifies id name record announced warranted =>
      refine sound.with_note rfl rfl fun told equal => ?_
      cases equal
      exact sound.of_announced announced
  | reacts name deed announced sees => exact sound.with_note rfl rfl nofun
  | begins farewell rest turns =>
      refine sound.with_turns rest before.farewells ?_
      rw [turns]
      simp
  | beginsFirst farewell rest handler turns warranted =>
      have popped : { before with turns := rest, farewells := before.farewells }.Sound := by
        refine sound.with_turns rest before.farewells ?_
        rw [turns]
        simp
      cases handler with
      | none => simpa using popped
      | some handler => exact popped.with_note rfl rfl nofun

theorem Steps.sound {warrant : Warrant} {before after : Departure}
    (steps : Steps warrant before after) (sound : before.Sound) : after.Sound :=
  Steps.preserves Step.sound steps sound

end Preservation

/-! ## What lasts, and what a warrant allows -/

/-- Nothing that was written, noted or closed is taken back. -/
structure Extends (before after : Departure) : Prop where
  record : ∀ record, before.link.record = some record → after.link.record = some record
  notes : before.notes <+: after.notes

theorem Step.extends {warrant : Warrant} {before after : Departure}
    (step : Step warrant before after) : before.Extends after := by
  cases step with
  | requestsNow record => exact ⟨fun written equal => by simp [equal], List.prefix_append _ _⟩
  | requestsCleanly reason warranted =>
      exact ⟨fun written equal => by simp [equal], List.prefix_append _ _⟩
  | sees rest turns isClosed warranted =>
      exact ⟨fun written equal => by simp [equal], List.prefix_append _ _⟩
  | notifies id name record announced warranted => exact ⟨fun _ written => written, List.prefix_append _ _⟩
  | reacts name deed announced sees => exact ⟨fun _ written => written, List.prefix_append _ _⟩
  | beginsFirst farewell rest handler turns warranted =>
      exact ⟨fun _ written => written, List.prefix_append _ _⟩
  | closesWatched | closesUnwatched | looks | subscribes | unsubscribes | begins =>
      exact ⟨fun _ written => written, List.prefix_rfl⟩

theorem Extends.step {warrant : Warrant} {start before after : Departure}
    (extended : start.Extends before) (step : Step warrant before after) : start.Extends after :=
  ⟨fun record equal => step.extends.record record (extended.record record equal),
    extended.notes.trans step.extends.notes⟩

theorem Steps.extends {warrant : Warrant} {before after : Departure}
    (steps : Steps warrant before after) : before.Extends after :=
  Steps.preserves (fun step extended => Extends.step extended step) steps
    ⟨fun _ written => written, List.prefix_rfl⟩

theorem Step.allowed {warrant : Warrant} {before after : Departure}
    (step : Step warrant before after) {note : Note} (member : note ∈ after.notes) :
    note ∈ before.notes ∨ warrant.Allows note := by
  have added {new : Note} (member : note ∈ before.notes ++ [new])
      (allows : warrant.Allows new) : note ∈ before.notes ∨ warrant.Allows note := by
    refine (List.mem_append.mp member).imp_right fun isNew => ?_
    rw [List.mem_singleton.mp isNew]
    exact allows
  cases step with
  | requestsNow record => exact added member trivial
  | requestsCleanly reason warranted => exact added member trivial
  | sees rest turns isClosed warranted => exact added member warranted
  | notifies id name record announced warranted => exact added member warranted
  | reacts name deed announced sees => exact added member trivial
  | beginsFirst farewell rest handler turns warranted =>
      refine (List.mem_append.mp member).imp_right fun isNew => ?_
      obtain ⟨asked, isHandler, rfl⟩ := List.mem_map.mp isNew
      exact warranted asked (Option.mem_toList.mp isHandler)
  | closesWatched | closesUnwatched | looks | subscribes | unsubscribes | begins =>
      exact .inl member

theorem Steps.allowed {warrant : Warrant} {before after : Departure}
    (steps : Steps warrant before after) {note : Note} (member : note ∈ after.notes) :
    note ∈ before.notes ∨ warrant.Allows note := by
  induction steps with
  | refl => exact .inl member
  | tail _ step inductionHypothesis =>
      rcases step.allowed member with earlier | allowed
      · exact inductionHypothesis earlier
      · exact .inr allowed

end Departure

/-! ## Along a history -/

section History

variable {peer : Peer}

theorem departure_create (settings : Settings) (address : PeerAddress) (publicKey : String)
    (dialled : Bool) (connection : Connection) (delegates : List Rpc.Delegate) :
    (create settings address publicKey dialled connection delegates).departure =
      .fresh connection.closed := by
  simp [create, departure, Departure.fresh, List.filter_map, Function.comp_def, Note.isDeparture,
    Turn.isDeparture]

theorem steps_of_sound (sound : peer.departure.Sound) (move : Move) :
    Departure.Steps (peer.warrant move) peer.departure (peer.move move).departure := by
  refine peer.steps_move move fun record announced => ?_
  have ended := (sound.of_announced announced).1
  exact ⟨(sound.ended ended).2, (sound.ended ended).1⟩

/-- What every step preserves holds after every history. -/
theorem play_preserves {holds : Departure → Prop}
    (each : ∀ {warrant before after}, Departure.Step warrant before after →
      holds before → holds after)
    (sound : peer.departure.Sound) (initially : holds peer.departure) (moves : List Move) :
    holds (peer.play moves).departure := by
  induction moves generalizing peer with
  | nil => exact initially
  | cons first rest inductionHypothesis =>
      have steps := steps_of_sound sound first
      exact inductionHypothesis (steps.sound sound) (steps.preserves each initially)

theorem sound_play (sound : peer.departure.Sound) (moves : List Move) :
    (peer.play moves).departure.Sound :=
  play_preserves Departure.Step.sound sound sound moves

theorem extends_play (sound : peer.departure.Sound) (moves : List Move) :
    peer.departure.Extends (peer.play moves).departure :=
  play_preserves (fun step extended => extended.step step) sound
    ⟨fun _ written => written, List.prefix_rfl⟩ moves

end History

end PeerLink.Peer
