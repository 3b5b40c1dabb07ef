import PeerLink.Proofs.Peer.Departure

/-!
Contract: that every move of a peer is a sequence of steps of its departure.

Requests to disconnect, the close of the connection, observers and goodbyes are followed one by one;
what they have in common with other moves does not touch the departure. Observers act while they are
told, so their calls are followed under `Telling`: a record is announced, and it is written.

Owns: the steps of each operation, what a move entitles its steps to, and `steps_move`.

Does not own: the laws derived from the steps.
-/

namespace PeerLink.Peer

/-! ## Requests to disconnect, and the close of the connection -/

section Requests

variable (warrant : Warrant) (peer : Peer)

theorem steps_disconnectImmediately (record : DisconnectRecord) :
    Departure.Steps warrant peer.departure (peer.disconnectImmediately record).departure := by
  refine Relation.ReflTransGen.single ?_
  have left : (peer.disconnectImmediately record).departure =
      { peer.departure with
        link := (peer.link.recordDisconnect record).2
        notes := peer.departure.notes ++ [.emitted (.disconnectRequested record false)] } := by
    simp [disconnectImmediately, departure, emit, Peer.note, enlist, Note.isDeparture,
      Turn.isDeparture]
  rw [left]
  exact .requestsNow record

theorem departure_disconnectCleanly (reason : DisconnectReason) :
    (peer.disconnectCleanly reason).2.departure =
      { peer.departure with
        link := (peer.link.recordDisconnect ⟨some reason, true⟩).2
        farewells := peer.farewells + 1
        notes := peer.departure.notes ++
          [.emitted (.disconnectRequested ⟨some reason, true⟩ true)]
        turns := peer.departure.turns ++ [.farewell ⟨peer.farewells, reason⟩
          (peer.link.recordDisconnect ⟨some reason, true⟩).1] } := by
  simp [disconnectCleanly, departure, emit, Peer.note, enlist, Note.isDeparture, Turn.isDeparture]

theorem steps_disconnectCleanly (reason : DisconnectReason)
    (warranted : peer.link.record = none → warrant.leaves reason) :
    Departure.Steps warrant peer.departure (peer.disconnectCleanly reason).2.departure := by
  refine Relation.ReflTransGen.single ?_
  rw [departure_disconnectCleanly]
  exact .requestsCleanly reason warranted

theorem steps_adjust (authority : Authority) (now : Reputation.Instant)
    (adjustment : Reputation.Adjustment)
    (warranted : (authority.judge now peer.address adjustment).verdict = .disconnect →
      warrant.leaves .remoteFault) :
    Departure.Steps warrant peer.departure (peer.adjust authority now adjustment).departure := by
  have judged := peer.changes_judged authority now adjustment
  by_cases drops : (authority.judge now peer.address adjustment).verdict = .disconnect
  · have reported := judged.change (.note (.emitted (.reputationDisconnect adjustment))) rfl
    rw [adjust_eq_disconnectCleanly drops, ← reported.departure_eq rfl]
    exact steps_disconnectCleanly warrant _ .remoteFault fun _ => warranted drops
  · rw [adjust_eq_noteAll drops, judged.departure_eq rfl]

theorem steps_closeConnection :
    Departure.Steps warrant peer.departure peer.closeConnection.departure := by
  refine Relation.ReflTransGen.single ?_
  cases watcher : peer.watcher with
  | waiting =>
      have closed : peer.closeConnection.departure =
          { peer.departure with
            closed := true
            watcher := .inLine
            turns := peer.departure.turns ++ [.watch] } := by
        simp [closeConnection, watcher, departure, enlist, Turn.isDeparture]
      rw [closed]
      exact .closesWatched watcher
  | inLine | ended =>
      have closed : peer.closeConnection.departure = { peer.departure with closed := true } := by
        simp [closeConnection, watcher, departure]
      rw [closed]
      exact .closesUnwatched (by simp [departure, watcher])

theorem steps_close : Departure.Steps warrant peer.departure peer.close.departure := by
  have asked := peer.changes_askClose.departure_eq rfl
  unfold close
  dsimp only
  split
  · rw [← asked]
    exact steps_closeConnection warrant _
  · rw [asked]
  · rw [← asked, ← (changes_note _ (.emitted (.connectionCloseFailed _))).departure_eq rfl]
    exact Relation.ReflTransGen.refl

end Requests

/-! ## Observers -/

/-- A peer whose observers are being told a record, with the steps that led to it. -/
structure Telling (warrant : Warrant) (start : Departure) (record : DisconnectRecord)
    (peer : Peer) : Prop where
  announced : peer.observers.announced? = some record
  recorded : peer.link.record ≠ none
  steps : Departure.Steps warrant start peer.departure

section Observers

variable {warrant : Warrant} {start : Departure} {record : DisconnectRecord} {peer : Peer}

theorem Telling.note_notified (telling : Telling warrant start record peer)
    (tells : warrant.tells) (id : SubscriptionId) (name : String) :
    Telling warrant start record (peer.note (.notified id name record)) where
  announced := telling.announced
  recorded := telling.recorded
  steps := by
    refine telling.steps.tail ?_
    have noted : (peer.note (.notified id name record)).departure =
        { peer.departure with notes := peer.departure.notes ++ [.notified id name record] } := by
      simp [departure, Peer.note, Note.isDeparture]
    rw [noted]
    exact .notifies id name record telling.announced tells

theorem Telling.note_reacted (telling : Telling warrant start record peer) (name : String)
    (deed : Deed)
    (sees : ∀ connected record, deed = .looked connected record →
      connected = peer.link.connected ∧ record = peer.link.record) :
    Telling warrant start record (peer.note (.reacted name deed)) where
  announced := telling.announced
  recorded := telling.recorded
  steps := by
    refine telling.steps.tail ?_
    have noted : (peer.note (.reacted name deed)).departure =
        { peer.departure with notes := peer.departure.notes ++ [.reacted name deed] } := by
      simp [departure, Peer.note, Note.isDeparture]
    rw [noted]
    refine .reacts name deed ?_ sees
    intro none
    rw [show peer.departure.observers.announced? = some record from telling.announced] at none
    cases none

theorem Telling.react (tells : warrant.tells) (name : String) (reaction : Reaction)
    (peer : Peer) (telling : Telling warrant start record peer) :
    Telling warrant start record (react name reaction peer).2 := by
  unfold Peer.react
  cases reaction with
  | panic => exact telling
  | subscribe inner =>
      cases subscribed : peer.observers.subscribe? { name := inner } with
      | none => simpa only [subscribed] using telling
      | some entry =>
          obtain ⟨id, observers⟩ := entry
          have announced := (Registry.announced?_subscribe? subscribed).trans telling.announced
          have joined : Telling warrant start record { peer with observers := observers } :=
            ⟨announced, telling.recorded,
              telling.steps.tail (.subscribes { name := inner } id observers subscribed)⟩
          simp only [subscribed, announced]
          exact (joined.note_notified tells id inner).note_reacted name _ (by simp)
  | unsubscribe id =>
      have left : Telling warrant start record
          { peer with observers := (peer.observers.unsubscribe id).2 } :=
        ⟨(Registry.announced?_unsubscribe _ id).trans telling.announced, telling.recorded,
          telling.steps.tail (.unsubscribes id)⟩
      exact left.note_reacted name _ (by simp)
  | disconnect reason =>
      have asked : Telling warrant start record (peer.disconnectImmediately ⟨reason, true⟩) := by
        refine ⟨telling.announced, ?_, telling.steps.trans (steps_disconnectImmediately _ _ _)⟩
        simp [disconnectImmediately, emit, Peer.note, enlist]
      exact asked.note_reacted name _ (by simp)
  | disconnectCleanly reason =>
      have asked : Telling warrant start record (peer.disconnectCleanly reason).2 := by
        refine ⟨telling.announced, ?_, telling.steps.trans (steps_disconnectCleanly _ _ _ ?_)⟩
        · simp [disconnectCleanly, emit, Peer.note, enlist]
        · exact fun none => absurd none telling.recorded
      exact asked.note_reacted name _ (by simp)
  | look =>
      refine telling.note_reacted name _ ?_
      intro connected record equal
      cases equal
      exact ⟨rfl, rfl⟩

theorem Telling.callObserver (tells : warrant.tells) (subscribed : SubscriptionId × Observer)
    (peer : Peer) (telling : Telling warrant start record peer) :
    Telling warrant start record (callObserver record subscribed peer).2 :=
  Registry.callEach_preserves (Telling.react tells subscribed.2.name) subscribed.2.reactions
    (telling.note_notified tells subscribed.1 subscribed.2.name)

theorem steps_subscribe (observer : Observer)
    (told : ∀ record, peer.observers.announced? = some record →
      peer.link.record ≠ none ∧ warrant.tells) :
    Departure.Steps warrant peer.departure (peer.subscribe observer).2.departure := by
  unfold subscribe
  cases subscribed : peer.observers.subscribe? observer with
  | none => exact Relation.ReflTransGen.refl
  | some entry =>
      obtain ⟨id, observers⟩ := entry
      have joined : Departure.Steps warrant peer.departure
          { peer with observers := observers }.departure :=
        Relation.ReflTransGen.single (.subscribes observer id observers subscribed)
      dsimp only
      cases announced : observers.announced? with
      | none => exact joined
      | some record =>
          obtain ⟨recorded, tells⟩ :=
            told record ((Registry.announced?_subscribe? subscribed).symm.trans announced)
          have called := Telling.callObserver tells (id, observer) { peer with observers := observers }
            ⟨announced, recorded, joined⟩
          dsimp only
          split <;> rename_i equal <;> rw [equal] at called <;> exact called.steps

theorem steps_unsubscribe (id : SubscriptionId) :
    Departure.Steps warrant peer.departure (peer.unsubscribe id).2.departure :=
  Relation.ReflTransGen.single (.unsubscribes id)

theorem steps_watch {rest : List Turn} (line : peer.line = .watch :: rest)
    (tells : peer.connection.closed = true → warrant.tells) :
    Departure.Steps warrant peer.departure { peer with line := rest }.watch.departure := by
  have turns : peer.departure.turns = .watch :: rest.filter Turn.isDeparture := by
    rw [departure, line]
    rfl
  cases closed : peer.connection.closed with
  | false =>
      have looked : { peer with line := rest }.watch.departure =
          { peer.departure with turns := rest.filter Turn.isDeparture, watcher := .waiting } := by
        simp [watch, closed, departure]
      rw [looked]
      exact Relation.ReflTransGen.single (.looks _ turns closed)
  | true =>
      let seen : Peer := ({ peer with
        line := rest
        link := peer.link.markClosed.2
        watcher := .ended }).emit (.connectionClosed peer.link.markClosed.1)
      have noted : seen.departure.notes =
          peer.departure.notes ++ [.emitted (.connectionClosed peer.link.markClosed.1)] := by
        simp [seen, departure, emit, Peer.note, Note.isDeparture]
      have watched : { peer with line := rest }.watch = seen.announce peer.link.markClosed.1 := by
        simp [watch, closed, seen]
      have saw := Departure.Step.sees _ turns closed (tells closed)
      rw [watched, announce]
      cases announces : peer.observers.announce? peer.link.markClosed.1 with
      | none =>
          rw [show peer.departure.observers.announce? peer.departure.link.markClosed.1 = none from
            announces] at saw
          simp only [show seen.observers.announce? peer.link.markClosed.1 = none from announces]
          rw [show seen.departure = _ from congrArg (fun notes => { peer.departure with
            turns := rest.filter Turn.isDeparture
            watcher := .ended
            link := peer.link.markClosed.2
            notes := notes }) noted]
          exact Relation.ReflTransGen.single saw
      | some entry =>
          obtain ⟨waiting, observers⟩ := entry
          rw [show peer.departure.observers.announce? peer.departure.link.markClosed.1 =
            some (waiting, observers) from announces] at saw
          simp only [show seen.observers.announce? peer.link.markClosed.1 =
            some (waiting, observers) from announces]
          have told : { seen with observers := observers }.departure =
              { peer.departure with
                turns := rest.filter Turn.isDeparture
                watcher := .ended
                link := peer.link.markClosed.2
                notes := seen.departure.notes
                observers := observers } := rfl
          rw [noted] at told
          have telling : Telling warrant peer.departure peer.link.markClosed.1
              { seen with observers := observers } := by
            refine ⟨Registry.announced?_announce? announces, ?_, ?_⟩
            · simp [seen, emit, Peer.note]
            · rw [told]
              exact Relation.ReflTransGen.single saw
          have called : Telling warrant peer.departure peer.link.markClosed.1
              (Registry.callEach (Peer.callObserver peer.link.markClosed.1) waiting
                { seen with observers := observers }).2 :=
            Registry.callEach_preserves (Telling.callObserver (tells closed)) waiting telling
          exact called.steps

end Observers

/-! ## Goodbyes -/

section Goodbyes

variable (warrant : Warrant) (peer : Peer)

theorem steps_concludeFarewell (farewell : Farewell) (outcome : GoodbyeOutcome) :
    Departure.Steps warrant peer.departure (peer.concludeFarewell farewell outcome).departure := by
  have left := steps_disconnectImmediately warrant (peer.reportFault farewell.reason outcome)
    ⟨some farewell.reason, true⟩
  have reported := (changes_reportPanic ((peer.reportFault farewell.reason outcome)
    |>.disconnectImmediately ⟨some farewell.reason, true⟩) outcome).departure_eq rfl
  rw [(changes_reportFault _ _ _).departure_eq rfl, ← reported] at left
  exact left

theorem steps_concludeExchange (caller : GoodbyeCaller) (reason : DisconnectReason)
    (outcome : GoodbyeOutcome) :
    Departure.Steps warrant peer.departure
      (peer.concludeExchange caller reason outcome).departure := by
  cases caller with
  | farewell number => exact steps_concludeFarewell warrant peer ⟨number, reason⟩ outcome
  | outside =>
      rw [← (peer.changes_note (.goodbyeEnded outcome)).departure_eq rfl]
      exact Relation.ReflTransGen.refl

theorem steps_resumeExchange (exchange : GoodbyeExchange) :
    Departure.Steps warrant peer.departure (peer.resumeExchange exchange).departure := by
  obtain ⟨logged, changes, resumed⟩ := peer.resumeExchange_cases exchange
  rw [resumed, ← changes.departure_eq rfl]
  exact steps_concludeExchange warrant logged _ _ _

theorem steps_requestGoodbye (clock : Clock) (caller : GoodbyeCaller) (reason : DisconnectReason)
    (timeoutMs : Nat) :
    Departure.Steps warrant peer.departure
      (peer.requestGoodbye clock caller reason timeoutMs).departure := by
  obtain ⟨sent, changes, waits | ⟨outcome, ends⟩⟩ :=
    peer.requestGoodbye_cases clock caller reason timeoutMs
  · rw [waits, changes.departure_eq rfl]
  · rw [ends, ← changes.departure_eq rfl]
    exact steps_concludeExchange warrant sent _ _ _

/-- What a clean disconnect does once its handler is asked. -/
theorem steps_afterAsking (clock : Clock) (farewell : Farewell) {handler : GoodbyeHandler}
    (installed : peer.handler = some handler) :
    Departure.Steps warrant (peer.note (.goodbyeAsked handler farewell.reason)).departure
      (peer.beginFarewell clock farewell true).departure := by
  unfold beginFarewell
  simp only [↓reduceIte]
  rw [installed]
  dsimp only
  split
  · exact steps_concludeFarewell warrant _ _ _
  · exact Relation.ReflTransGen.refl
  · exact steps_requestGoodbye warrant _ _ _ _ _

theorem steps_beginFarewell (clock : Clock) {farewell : Farewell} {first : Bool} {rest : List Turn}
    (line : peer.line = .farewell farewell first :: rest)
    (asks : first = true → ∀ handler, peer.handler = some handler →
      warrant.asks handler farewell.reason) :
    Departure.Steps warrant peer.departure
      ({ peer with line := rest }.beginFarewell clock farewell first).departure := by
  have turns : peer.departure.turns =
      .farewell farewell first :: rest.filter Turn.isDeparture := by
    rw [departure, line]
    rfl
  cases first with
  | false =>
      have began : Departure.Step warrant peer.departure { peer with line := rest }.departure :=
        .begins farewell _ turns
      exact (Relation.ReflTransGen.single began).trans
        (steps_concludeFarewell warrant { peer with line := rest } farewell .said)
  | true =>
      have began := Departure.Step.beginsFirst farewell _ peer.handler turns (asks rfl)
      rcases Option.eq_none_or_eq_some peer.handler with installed | ⟨handler, installed⟩
      · have popped : { peer with line := rest }.departure =
            { peer.departure with
              turns := rest.filter Turn.isDeparture
              notes := peer.departure.notes ++ [] } := by
          simp [departure]
        rw [installed] at began
        have concludes := steps_concludeFarewell warrant { peer with line := rest } farewell .said
        rw [popped] at concludes
        have unasked : { peer with line := rest }.beginFarewell clock farewell true =
            { peer with line := rest }.concludeFarewell farewell .said := by
          simp [beginFarewell, installed]
        rw [unasked]
        exact (Relation.ReflTransGen.single began).trans concludes
      · have asked : ({ peer with line := rest }.note
            (.goodbyeAsked handler farewell.reason)).departure =
            { peer.departure with
              turns := rest.filter Turn.isDeparture
              notes := peer.departure.notes ++ [.goodbyeAsked handler farewell.reason] } := by
          simp [departure, Peer.note, Note.isDeparture]
        rw [installed] at began
        have goesOn := steps_afterAsking warrant { peer with line := rest } clock farewell installed
        rw [asked] at goesOn
        exact (Relation.ReflTransGen.single began).trans goesOn

end Goodbyes

/-! ## Every move consists of steps -/

/-- A move that asks for a clean disconnect does what the request does, whichever way it asks. -/
theorem departure_of_asksCleanly {peer : Peer} {reason : DisconnectReason} {move : Move}
    (asks : peer.AsksCleanly reason move) :
    (peer.move move).departure = (peer.disconnectCleanly reason).2.departure := by
  unfold AsksCleanly at asks
  split at asks
  · rw [← asks]
    rfl
  · rename_i authority now adjustment
    obtain ⟨dropped, rfl⟩ := asks
    have judged := peer.changes_judged authority now adjustment
    have reported := (judged.change (.note (.emitted (.reputationDisconnect adjustment)))
      rfl).departure_eq rfl
    rw [Peer.move, adjust_eq_disconnectCleanly dropped, departure_disconnectCleanly,
      departure_disconnectCleanly, emit, reported]
    rfl
  · exact asks.elim

/-- What a move entitles its steps to: only the turn of the clean disconnect that wrote the record
asks the handler, only a clean request writes the record by one, and only after the close is anyone
told. -/
def warrant (peer : Peer) (move : Move) : Warrant where
  asks handler reason :=
    (∃ clock, move = .turn clock) ∧ peer.handler = some handler ∧
      ∃ farewell rest, peer.line = .farewell farewell true :: rest ∧ farewell.reason = reason
  leaves reason := peer.AsksCleanly reason move
  tells := peer.connection.closed = true

theorem steps_turn (peer : Peer) (clock : Clock) :
    Departure.Steps (peer.warrant (.turn clock)) peer.departure
      (peer.move (.turn clock)).departure := by
  cases line : peer.line with
  | nil =>
      rw [move_turn_of_nil line]
  | cons turn rest =>
      rw [move_turn_of_cons line]
      have popped (other : turn.isDeparture = false) :
          peer.departure = { peer with line := rest }.departure := by
        simp [departure, line, other]
      cases turn with
      | watch => exact steps_watch line fun closed => closed
      | farewell farewell first =>
          refine steps_beginFarewell _ peer clock line ?_
          rintro rfl handler installed
          exact ⟨⟨clock, rfl⟩, installed, farewell, rest, line, rfl⟩
      | close =>
          rw [popped rfl]
          exact steps_close _ _
      | goodbyeTold farewell outcome =>
          rw [popped rfl]
          exact steps_concludeFarewell _ _ _ _
      | goodbye reason timeoutMs =>
          rw [popped rfl, take, (changes_beginGoodbye _ _ _ _).departure_eq rfl]
      | goodbyeDue exchange =>
          rw [popped rfl]
          exact steps_resumeExchange _ _ _
      | identify inquirer =>
          rw [popped rfl, take, (changes_identify _ _).departure_eq rfl]
      | identified held =>
          rw [popped rfl, take, (changes_concludeIdentify _ _ _).departure_eq rfl]
      | call call =>
          rw [popped rfl, take, (changes_makeCall _ _).departure_eq rfl]
      | callTold call outcome =>
          rw [popped rfl, take, (changes_tellCall _ _ _).departure_eq rfl]

theorem steps_move (peer : Peer) (move : Move)
    (told : ∀ record, peer.observers.announced? = some record →
      peer.link.record ≠ none ∧ peer.connection.closed = true) :
    Departure.Steps (peer.warrant move) peer.departure (peer.move move).departure := by
  have untouched {later : Peer} (same : later.departure = peer.departure) :
      Departure.Steps (peer.warrant move) peer.departure later.departure := by
    rw [same]
  cases move with
  | subscribe observer => exact steps_subscribe observer told
  | unsubscribe id => exact steps_unsubscribe id
  | disconnectImmediately record => exact steps_disconnectImmediately _ _ _
  | disconnectCleanly reason => exact steps_disconnectCleanly _ _ _ fun _ => rfl
  | adjust authority now adjustment =>
      exact steps_adjust _ peer authority now adjustment fun verdict => ⟨verdict, rfl⟩
  | setHandler handler => exact untouched rfl
  | installGoodbye => exact untouched rfl
  | send method body sink => exact untouched ((peer.changes_send _ _ _).departure_eq rfl)
  | checkIdentity => exact untouched (peer.changes_checkIdentity.departure_eq rfl)
  | lookUpAgent => exact untouched ((peer.changes_enlist (.identify .caller)).departure_eq rfl)
  | askGoodbye reason timeoutMs =>
      exact untouched ((peer.changes_enlist (.goodbye _ _)).departure_eq rfl)
  | remoteClose => exact steps_closeConnection _ _
  | prepareIdentify reply => exact untouched rfl
  | releaseIdentify => exact untouched (peer.changes_releaseIdentify.departure_eq rfl)
  | tellCall start outcome => exact untouched ((peer.changes_tellOpenCall _ _).departure_eq rfl)
  | tellGoodbye outcome => exact untouched ((peer.changes_tellGoodbye _).departure_eq rfl)
  | cutStream method => exact untouched ((peer.changes_note (.streamCut method)).departure_eq rfl)
  | hold owned => exact untouched rfl
  | wake ticket => exact untouched ((peer.changes_wakeExchange _).departure_eq rfl)
  | turn clock => exact steps_turn peer clock

end PeerLink.Peer
