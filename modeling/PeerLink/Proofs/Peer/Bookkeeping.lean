import PeerLink.Proofs.Peer.Books
import PeerLink.Proofs.Peer.Footprint

/-!
Contract: that every move of a peer is a sequence of steps of its books.

Owns: the steps of each operation, and `booked_move`.

Does not own: what the steps preserve.
-/

namespace PeerLink.Peer

/-! ## What the books do not show -/

/-- Whether a change of this aspect shows in the books. -/
def Aspect.inBooks : Aspect → Bool
  | .table | .request | .asking | .telling | .waiting | .goodbye => true
  | _ => false

theorem Note.entry?_of_aspect {note : Note} (unseen : note.aspect.inBooks = false) :
    note.entry? = none := by
  cases note with
  | emitted occurrence =>
      cases occurrence with
      | disconnectRequested => cases unseen
      | _ => rfl
  | closeAsked | reacted | goodbyeAsked => cases unseen
  | _ => rfl

theorem Turn.errand?_of_aspect {turn : Turn} (unseen : turn.aspect.inBooks = false) :
    turn.errand? = none := by
  cases turn with
  | close | farewell | goodbyeTold | goodbyeDue => cases unseen
  | _ => rfl

section Unseen

variable {outside : Calls}

theorem books_note (peer : Peer) (note : Note) (other : note.entry? = none) :
    (peer.note note).books outside = peer.books outside := by
  simp [books, Peer.note, List.filterMap_append, other]

theorem books_enlist (peer : Peer) (turn : Turn) (other : turn.errand? = none) :
    (peer.enlist turn).books outside = peer.books outside := by
  simp [books, Peer.enlist, List.filterMap_append, other]

variable {before after : Peer}

theorem Change.books_eq {aspect : Aspect} (change : Change before aspect after)
    (unseen : aspect.inBooks = false) : after.books outside = before.books outside := by
  cases change with
  | note note => exact before.books_note note (Note.entry?_of_aspect unseen)
  | enlist turn => exact before.books_enlist turn (Turn.errand?_of_aspect unseen)
  | table | link | farewells | observers | heldGoodbyes | exchanges | farewellsEnded => cases unseen
  | _ => rfl

theorem ChangesOnly.books_eq {aspects : List Aspect} (changes : before.ChangesOnly aspects after)
    (unseen : aspects.any Aspect.inBooks = false) : after.books outside = before.books outside :=
  changes.view_eq Change.books_eq unseen

end Unseen

/-! ## Calls -/

section Calls

variable (peer : Peer) {outside : Calls}

theorem books_release (method : Rpc.Method) :
    ({ peer with table := (peer.table.release method).2 }.books outside) =
      peer.books outside := by
  simp [books, Rpc.Table.acceptedOf_release]

theorem books_accept {method : Rpc.Method} {body : Rpc.Bytes} {sink : Rpc.ResponseSink}
    {accepted : Rpc.Table.Accepted} (accepts : peer.table.accept? method body sink = some accepted) :
    { peer with table := accepted.table }.books outside =
      { peer.books outside with
        accepted := (peer.books outside).accepted +
          if Rpc.Method.goodbye = method then 1 else 0 } := by
  simp [books, Rpc.Table.acceptedOf_accept? accepts]

theorem booked_send (method : Rpc.Method) (body : Rpc.Bytes) (sink : Rpc.ResponseSink) :
    Books.Steps (peer.books outside) ((peer.send method body sink).2.books outside) := by
  unfold send
  split
  · exact Relation.ReflTransGen.refl
  · rename_i accepted accepts
    rw [(changes_enlistCall _ _).books_eq rfl, books_accept peer accepts]
    by_cases isGoodbye : Rpc.Method.goodbye = method
    · rw [if_pos isGoodbye]
      exact Relation.ReflTransGen.single .accepts
    · rw [if_neg isGoodbye]
      exact Relation.ReflTransGen.refl

theorem find?_exchanges {ticket : Rpc.Ticket} {exchange : GoodbyeExchange}
    (found : peer.exchanges.find? (·.ticket == ticket) = some exchange) :
    (peer.books outside).exchanges.find? (·.1 == ticket) =
      some (exchange.ticket, exchange.caller.number?) := by
  simp only [books, List.find?_map]
  refine (congrArg (Option.map _) ?_ : _ = Option.map _ (some exchange))
  exact found

theorem booked_wakeExchange (ticket : Rpc.Ticket) :
    Books.Steps (peer.books outside) ((peer.wakeExchange ticket).books outside) := by
  unfold wakeExchange
  split
  · exact Relation.ReflTransGen.refl
  · rename_i exchange found
    have matched := List.find?_some found
    obtain rfl : exchange.ticket = ticket := eq_of_beq matched
    have woken : Books.Step (peer.books outside) _ :=
      .wakes (exchange.ticket, exchange.caller.number?) (peer.find?_exchanges found)
    have left : ({ peer with exchanges := peer.exchanges.filter (·.ticket != exchange.ticket) }.enlist
        (.goodbyeDue exchange)).books outside =
        { peer.books outside with
          exchanges := (peer.books outside).exchanges.filter (·.1 != exchange.ticket)
          errands := (peer.books outside).errands ++
            (exchange.caller.number?.map Errand.ends).toList } := by
      simp only [books, enlist, List.filterMap_append, List.filter_map]
      cases caller : exchange.caller.number? <;> simp [Turn.errand?, caller, Function.comp_def]
    rw [left]
    exact Relation.ReflTransGen.single woken

theorem booked_concludeCall (call : Rpc.Call) (result : Rpc.CallResult) :
    Books.Steps (peer.books outside) ((peer.concludeCall call result).books outside) := by
  obtain ⟨delivered, changes, concluded⟩ := peer.concludeCall_cases call result
  have same : delivered.books outside = peer.books outside :=
    (changes.books_eq rfl).trans (peer.books_release call.method)
  rw [concluded, ← same]
  exact delivered.booked_wakeExchange call.ticket

theorem booked_tellCall (call : Rpc.Call) (outcome : Rpc.CallOutcome) :
    Books.Steps (peer.books outside) ((peer.tellCall call outcome).books outside) := by
  rw [tellCall, ← (peer.changes_sinkNotes call.sink outcome).books_eq rfl]
  exact booked_concludeCall _ call outcome.result

theorem booked_makeCall (call : Rpc.Call) :
    Books.Steps (peer.books outside) ((peer.makeCall call).books outside) := by
  obtain ⟨called, changes, waits | ⟨result, ends⟩⟩ := peer.makeCall_cases call
  · rw [waits, changes.books_eq rfl]
  · rw [ends, ← changes.books_eq rfl]
    exact called.booked_concludeCall call result

end Calls

/-! ## Requests to disconnect, and the close of the connection -/

section Requests

variable (peer : Peer) {outside : Calls}

theorem books_disconnectImmediately (record : DisconnectRecord) :
    (peer.disconnectImmediately record).books outside =
      { peer.books outside with
        entries := (peer.books outside).entries ++ [.now]
        errands := (peer.books outside).errands ++ [.close] } := by
  simp [books, disconnectImmediately, emit, Peer.note, enlist, Note.entry?, Turn.errand?]

theorem books_disconnectCleanly (reason : DisconnectReason) :
    (peer.disconnectCleanly reason).2.books outside =
      { peer.books outside with
        entries := (peer.books outside).entries ++ [.cleanly]
        errands := (peer.books outside).errands ++ [.begins (peer.books outside).farewells]
        farewells := (peer.books outside).farewells + 1 } := by
  simp [books, disconnectCleanly, emit, Peer.note, enlist, Note.entry?, Turn.errand?]

theorem booked_callNow (record : DisconnectRecord) :
    Books.Steps (peer.books outside)
      ((peer.disconnectImmediately record).books { outside with now := outside.now + 1 }) := by
  rw [books_disconnectImmediately]
  exact Relation.ReflTransGen.single .callsNow

theorem booked_callCleanly (reason : DisconnectReason) :
    Books.Steps (peer.books outside)
      ((peer.disconnectCleanly reason).2.books
        { outside with cleanly := outside.cleanly + 1 }) := by
  rw [books_disconnectCleanly]
  exact Relation.ReflTransGen.single .callsCleanly

theorem booked_adjust (authority : Authority) (now : Reputation.Instant)
    (adjustment : Reputation.Adjustment) :
    Books.Steps (peer.books outside)
      ((peer.adjust authority now adjustment).books { outside with
        cleanly := outside.cleanly +
          if (authority.judge now peer.address adjustment).verdict = .disconnect then 1 else 0 }) := by
  have judged : (peer.noteAll (authority.judge now peer.address adjustment).notes).books outside =
      peer.books outside := (peer.changes_judged authority now adjustment).books_eq rfl
  by_cases drops : (authority.judge now peer.address adjustment).verdict = .disconnect
  · rw [adjust_eq_disconnectCleanly drops, if_pos drops, ← judged,
      ← books_note _ (.emitted (.reputationDisconnect adjustment)) rfl]
    exact booked_callCleanly _ .remoteFault
  · rw [adjust_eq_noteAll drops, if_neg drops, Nat.add_zero, judged]

/-- The turn that asks the connection to close. -/
theorem booked_close {rest : List Turn} (line : peer.line = .close :: rest) :
    Books.Steps (peer.books outside) ({ peer with line := rest }.close.books outside) := by
  have errands : (peer.books outside).errands = .close :: rest.filterMap Turn.errand? := by
    simp [books, line, Turn.errand?]
  have asked : ({ peer with
      line := rest
      connection := peer.connection.nextClose.2 }.note .closeAsked).books outside =
      { peer.books outside with
        entries := (peer.books outside).entries ++ [.close]
        errands := rest.filterMap Turn.errand? } := by
    simp [books, Peer.note, Note.entry?]
  have step : Books.Steps (peer.books outside) _ :=
    Relation.ReflTransGen.single (Books.Step.closes _ errands)
  rw [← asked] at step
  unfold close
  dsimp only
  split
  · rw [(changes_closeConnection _).books_eq rfl]
    exact step
  · exact step
  · rw [emit, books_note _ _ rfl]
    exact step

end Requests

/-! ## Observers -/

/-- The books of a peer follow from these. -/
def Booked (start : Books) (outside : Calls) (peer : Peer) : Prop :=
  Books.Steps start (peer.books outside)

section Observers

variable {outside : Calls} {start : Books}

theorem Booked.of_books {peer later : Peer} (booked : Booked start outside peer)
    (same : later.books outside = peer.books outside) : Booked start outside later := by
  unfold Booked
  rw [same]
  exact booked

theorem Booked.keptByObservers : KeptByObservers (Booked start outside) where
  registry _ booked := booked.of_books rfl
  notified _ _ _ booked := booked.of_books (books_note _ _ rfl)
  reacted name deed stays staysAsWell booked := by
    refine booked.of_books (books_note _ _ ?_)
    cases deed with
    | disconnected => exact absurd rfl stays
    | disconnectedCleanly => exact absurd rfl staysAsWell
    | _ => rfl
  disconnected {peer} name reason booked := by
    have noted : ((peer.disconnectImmediately ⟨reason, true⟩).note
        (.reacted name .disconnected)).books outside =
        { peer.books outside with
          entries := (peer.books outside).entries ++ [.now, .byObserver]
          errands := (peer.books outside).errands ++ [.close] } := by
      simp [books, disconnectImmediately, emit, Peer.note, enlist, Note.entry?, Turn.errand?]
    refine Relation.ReflTransGen.tail booked ?_
    rw [noted]
    exact .reactsNow
  disconnectedCleanly {peer} name reason booked := by
    have noted : ((peer.disconnectCleanly reason).2.note
        (.reacted name .disconnectedCleanly)).books outside =
        { peer.books outside with
          entries := (peer.books outside).entries ++ [.cleanly, .cleanlyByObserver]
          errands := (peer.books outside).errands ++ [.begins (peer.books outside).farewells]
          farewells := (peer.books outside).farewells + 1 } := by
      simp [books, disconnectCleanly, emit, Peer.note, enlist, Note.entry?, Turn.errand?]
    refine Relation.ReflTransGen.tail booked ?_
    rw [noted]
    exact .reactsCleanly

theorem booked_subscribe (peer : Peer) (observer : Observer) :
    Books.Steps (peer.books outside) ((peer.subscribe observer).2.books outside) :=
  Booked.keptByObservers.subscribe observer Relation.ReflTransGen.refl

theorem booked_announce (peer : Peer) (record : DisconnectRecord) :
    Books.Steps (peer.books outside) ((peer.announce record).books outside) :=
  Booked.keptByObservers.announce record Relation.ReflTransGen.refl

theorem booked_watch (peer : Peer) :
    Books.Steps (peer.books outside) (peer.watch.books outside) := by
  unfold watch
  split
  · have reported : ({ peer with link := peer.link.markClosed.2, watcher := .ended }.emit
        (.connectionClosed peer.link.markClosed.1)).books outside = peer.books outside :=
      books_note { peer with link := _, watcher := _ } _ rfl
    dsimp only
    rw [← reported]
    exact booked_announce _ _
  · exact Relation.ReflTransGen.refl

end Observers

/-! ## Goodbyes -/

section Goodbyes

variable (peer : Peer) {outside : Calls}

theorem books_concludeFarewell (farewell : Farewell) (outcome : GoodbyeOutcome) :
    (peer.concludeFarewell farewell outcome).books outside =
      { peer.books outside with
        entries := (peer.books outside).entries ++ [.now]
        errands := (peer.books outside).errands ++ [.close]
        ended := (peer.books outside).ended ++ [farewell.number] } := by
  have reported : (((peer.reportFault farewell.reason outcome).disconnectImmediately
      ⟨some farewell.reason, true⟩).reportPanic outcome).books outside = _ :=
    ((changes_reportPanic _ outcome).books_eq rfl).trans (books_disconnectImmediately _ _)
  rw [(changes_reportFault _ _ _).books_eq rfl] at reported
  have numbered := congrArg (fun books : Books =>
    { books with ended := books.ended ++ [farewell.number] }) reported
  exact numbered

/-- A clean disconnect ends in a turn of its own. -/
theorem booked_concludeFarewell {start : Books} {errand : Errand} (farewell : Farewell)
    (outcome : GoodbyeOutcome)
    (popped : start = { peer.books outside with
      errands := errand :: (peer.books outside).errands })
    (either : errand = .begins farewell.number ∨ errand = .ends farewell.number) :
    Books.Steps start ((peer.concludeFarewell farewell outcome).books outside) := by
  have step := Books.Step.ends farewell.number errand (peer.books outside).errands
    (congrArg Books.errands popped) either
  rw [books_concludeFarewell]
  subst popped
  exact Relation.ReflTransGen.single step

theorem of_refused {method : Rpc.Method} {body : Rpc.Bytes} {sink : Rpc.ResponseSink}
    {refused : Peer} (sends : peer.send method body sink = (none, refused)) : refused = peer := by
  unfold send at sends
  split at sends
  · exact (Prod.mk.inj sends).2.symm
  · cases sends

theorem of_sent (outside : Calls) {body : Rpc.Bytes} {sink : Rpc.ResponseSink} {ticket : Rpc.Ticket} {sent : Peer}
    (sends : peer.send .goodbye body sink = (some ticket, sent)) :
    ticket = (peer.books outside).nextTicket ∧
      sent.books outside =
        { peer.books outside with accepted := (peer.books outside).accepted + 1 } := by
  unfold send at sends
  split at sends
  · cases sends
  · rename_i accepted accepts
    obtain ⟨isTicket, rfl⟩ := Prod.mk.inj sends
    constructor
    · rw [← Option.some.inj isTicket]
      exact Rpc.Table.ticket_accept? accepts
    · rw [(changes_enlistCall _ _).books_eq rfl, books_accept peer accepts, if_pos rfl]

theorem books_heldGoodbyes (farewell : Farewell) :
    { peer with heldGoodbyes := peer.heldGoodbyes ++ [farewell] }.books outside =
      { peer.books outside with held := (peer.books outside).held ++ [farewell.number] } := by
  simp [books]

theorem books_exchanges (exchange : GoodbyeExchange) :
    { peer with exchanges := peer.exchanges ++ [exchange] }.books outside =
      { peer.books outside with
        exchanges := (peer.books outside).exchanges ++
          [(exchange.ticket, exchange.caller.number?)] } := by
  simp [books]

theorem booked_requestOutside (clock : Clock) (reason : DisconnectReason) (timeoutMs : Nat) :
    Books.Steps (peer.books outside)
      ((peer.requestGoodbye clock .outside reason timeoutMs).books outside) := by
  unfold requestGoodbye
  split
  · rename_i refused sends
    rw [peer.of_refused sends, concludeExchange, books_note _ _ rfl]
  · rename_i ticket sent sends
    obtain ⟨isTicket, sentBooks⟩ := peer.of_sent outside sends
    dsimp only
    split
    · rw [concludeExchange, books_note _ _ rfl, sentBooks]
      exact Relation.ReflTransGen.single .accepts
    · rw [books_exchanges, sentBooks, isTicket]
      exact Relation.ReflTransGen.single .sendsOutside

theorem booked_beginGoodbye (clock : Clock) (reason : DisconnectReason) (timeoutMs : Nat) :
    Books.Steps (peer.books outside) ((peer.beginGoodbye clock reason timeoutMs).books outside) := by
  unfold beginGoodbye
  split
  · exact peer.booked_requestOutside clock reason timeoutMs
  · rw [books_note _ _ rfl]

/-- The books before the turn of a clean disconnect. -/
def Books.beginning (books : Books) (number : Nat) : Books :=
  { books with errands := .begins number :: books.errands }

theorem books_asked (handler : GoodbyeHandler) (reason : DisconnectReason) :
    (peer.note (.goodbyeAsked handler reason)).books outside =
      { peer.books outside with entries := (peer.books outside).entries ++ [.goodbye] } := by
  simp [books, Peer.note, Note.entry?]

theorem booked_requestFarewell (clock : Clock) (farewell : Farewell) (handler : GoodbyeHandler)
    (timeoutMs : Nat) :
    Books.Steps ((peer.books outside).beginning farewell.number)
      (((peer.note (.goodbyeAsked handler farewell.reason)).requestGoodbye clock
        (.farewell farewell.number) farewell.reason timeoutMs).books outside) := by
  have asked : (peer.note (.goodbyeAsked handler farewell.reason)).books outside = _ :=
    peer.books_asked handler farewell.reason
  have asks : Books.Steps ((peer.books outside).beginning farewell.number)
      (((peer.note (.goodbyeAsked handler farewell.reason)).books outside).beginning
        farewell.number) := by
    rw [asked]
    exact Relation.ReflTransGen.single .asks
  unfold requestGoodbye
  split
  · rename_i refused sends
    rw [of_refused _ sends]
    exact asks.trans (booked_concludeFarewell _ ⟨farewell.number, farewell.reason⟩ _ rfl (.inl rfl))
  · rename_i ticket sent sends
    obtain ⟨isTicket, sentBooks⟩ := of_sent _ outside sends
    dsimp only
    split
    · refine (asks.tail .accepts).trans
        (booked_concludeFarewell _ ⟨farewell.number, farewell.reason⟩ _ ?_ (.inl rfl))
      rw [sentBooks]
      rfl
    · rw [books_exchanges, sentBooks, isTicket, asked]
      exact Relation.ReflTransGen.single (.sends farewell.number _ rfl)

theorem booked_beginFarewell (clock : Clock) (farewell : Farewell) (first : Bool) :
    Books.Steps ((peer.books outside).beginning farewell.number)
      ((peer.beginFarewell clock farewell first).books outside) := by
  have concludes (later : Peer) (outcome : GoodbyeOutcome) :
      Books.Steps ((later.books outside).beginning farewell.number)
        ((later.concludeFarewell farewell outcome).books outside) :=
    later.booked_concludeFarewell farewell outcome rfl (.inl rfl)
  unfold beginFarewell
  split
  · split
    · exact concludes peer .said
    · rename_i handler installed
      have asked : (peer.note (.goodbyeAsked handler farewell.reason)).books outside = _ :=
        peer.books_asked handler farewell.reason
      dsimp only
      split
      · rename_i outcome
        refine Relation.ReflTransGen.trans ?_ (concludes _ outcome)
        rw [asked]
        exact Relation.ReflTransGen.single .asks
      · rw [books_heldGoodbyes, asked]
        exact Relation.ReflTransGen.single (.holds farewell.number _ rfl)
      · exact peer.booked_requestFarewell clock farewell _ _
  · exact concludes peer .said

theorem booked_resumeExchange (exchange : GoodbyeExchange) {start : Books}
    (popped : start = { peer.books outside with
      errands := (exchange.caller.number?.map Errand.ends).toList ++ (peer.books outside).errands }) :
    Books.Steps start ((peer.resumeExchange exchange).books outside) := by
  have concludes (later : Peer) (same : later.books outside = peer.books outside)
      (outcome : GoodbyeOutcome) :
      Books.Steps start
        ((later.concludeExchange exchange.caller exchange.reason outcome).books outside) := by
    rw [← same] at popped
    cases caller : exchange.caller with
    | farewell number =>
        rw [caller] at popped
        exact later.booked_concludeFarewell ⟨number, exchange.reason⟩ outcome popped (.inr rfl)
    | outside =>
        rw [caller] at popped
        rw [popped, concludeExchange, books_note _ _ rfl]
        exact Relation.ReflTransGen.refl
  unfold resumeExchange
  dsimp only
  split
  · exact concludes _ (books_note _ _ rfl) _
  · exact concludes _ rfl _
  · exact concludes _ rfl _

theorem booked_tellGoodbye (outcome : GoodbyeOutcome) :
    Books.Steps (peer.books outside) ((peer.tellGoodbye outcome).2.books outside) := by
  unfold tellGoodbye
  split
  · exact Relation.ReflTransGen.refl
  · rename_i farewell rest held
    have told : ({ peer with heldGoodbyes := rest }.enlist (.goodbyeTold farewell outcome)).books
        outside = { peer.books outside with
          held := rest.map Farewell.number
          errands := (peer.books outside).errands ++ [.ends farewell.number] } := by
      simp [books, enlist, Turn.errand?]
    dsimp only
    rw [told]
    refine Relation.ReflTransGen.single (.tells farewell.number _ ?_)
    simp [books, held]

end Goodbyes

/-! ## Every move consists of steps -/

/-- What a move asks for from outside. -/
def Move.calls (address : PeerAddress) (calls : Calls) : Move → Calls
  | disconnectImmediately _ => { calls with now := calls.now + 1 }
  | disconnectCleanly _ => { calls with cleanly := calls.cleanly + 1 }
  | adjust authority now adjustment =>
      { calls with
        cleanly := calls.cleanly +
          if (authority.judge now address adjustment).verdict = .disconnect then 1 else 0 }
  | _ => calls

section Moves

variable (peer : Peer) {outside : Calls}

theorem booked_turn (clock : Clock) :
    Books.Steps (peer.books outside) ((peer.move (.turn clock)).books outside) := by
  cases line : peer.line with
  | nil =>
      rw [move_turn_of_nil line]
  | cons turn rest =>
      rw [move_turn_of_cons line]
      have popped : peer.books outside =
          { { peer with line := rest }.books outside with
            errands := turn.errand?.toList ++ ({ peer with line := rest }.books outside).errands } := by
        simp only [books, line, List.filterMap_cons]
        cases turn.errand? <;> rfl
      have unnoticed (other : turn.errand? = none) :
          peer.books outside = { peer with line := rest }.books outside := by
        rw [popped, other]
        rfl
      cases turn with
      | close => exact peer.booked_close line
      | farewell farewell first =>
          rw [popped]
          exact booked_beginFarewell _ clock farewell first
      | goodbyeTold farewell outcome =>
          exact booked_concludeFarewell _ farewell outcome popped (.inr rfl)
      | goodbyeDue exchange => exact booked_resumeExchange _ exchange popped
      | watch =>
          rw [unnoticed rfl]
          exact booked_watch _
      | goodbye reason timeoutMs =>
          rw [unnoticed rfl]
          exact booked_beginGoodbye _ clock reason timeoutMs
      | identify inquirer => rw [unnoticed rfl, take, (changes_identify _ _).books_eq rfl]
      | identified held =>
          rw [unnoticed rfl, take, (changes_concludeIdentify _ _ _).books_eq rfl]
      | call call =>
          rw [unnoticed rfl]
          exact booked_makeCall _ call
      | callTold call outcome =>
          rw [unnoticed rfl]
          exact booked_tellCall _ call outcome

theorem booked_move (move : Move) :
    Books.Steps (peer.books outside) ((peer.move move).books (move.calls peer.address outside)) := by
  have untouched {later : Peer} (same : later.books outside = peer.books outside) :
      Books.Steps (peer.books outside) (later.books outside) := by
    rw [same]
  cases move with
  | subscribe observer => exact peer.booked_subscribe observer
  | unsubscribe id => exact untouched rfl
  | disconnectImmediately record => exact peer.booked_callNow record
  | disconnectCleanly reason => exact peer.booked_callCleanly reason
  | adjust authority now adjustment => exact peer.booked_adjust authority now adjustment
  | setHandler handler => exact untouched rfl
  | installGoodbye => exact untouched rfl
  | send method body sink => exact peer.booked_send method body sink
  | checkIdentity => exact untouched (peer.changes_checkIdentity.books_eq rfl)
  | lookUpAgent => exact untouched (peer.books_enlist _ rfl)
  | askGoodbye reason timeoutMs => exact untouched (peer.books_enlist _ rfl)
  | remoteClose => exact untouched (peer.changes_closeConnection.books_eq rfl)
  | prepareIdentify reply => exact untouched rfl
  | releaseIdentify => exact untouched (peer.changes_releaseIdentify.books_eq rfl)
  | tellCall start outcome => exact untouched ((peer.changes_tellOpenCall start outcome).books_eq rfl)
  | tellGoodbye outcome => exact peer.booked_tellGoodbye outcome
  | cutStream method => exact untouched (peer.books_note _ rfl)
  | hold owned => exact untouched rfl
  | wake ticket => exact peer.booked_wakeExchange ticket
  | turn clock => exact peer.booked_turn clock

end Moves

end PeerLink.Peer
