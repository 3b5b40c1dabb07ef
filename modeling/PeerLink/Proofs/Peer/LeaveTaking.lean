import PeerLink.Proofs.Peer.Endings
import PeerLink.Proofs.Peer.Parting

/-!
Contract: that every move of a peer is a sequence of steps of its parting.

Owns: the steps of each operation, what a move entitles its steps to, and `parted_move`.

Does not own: what the steps preserve.
-/

namespace PeerLink.Peer

/-! ## Calls -/

section Calls

variable {allows : Leave} (peer : Peer)

theorem parting_accept {method : Rpc.Method} {body : Rpc.Bytes} {sink : Rpc.ResponseSink}
    {accepted : Rpc.Table.Accepted} (accepts : peer.table.accept? method body sink = some accepted) :
    { peer with table := accepted.table }.parting =
      { peer.parting with
        accepted := peer.parting.accepted + if Rpc.Method.goodbye = method then 1 else 0 } := by
  simp [parting, Peer.id, Rpc.Table.acceptedOf_accept? accepts]

/-- Sending notes nothing. -/
theorem account_send (method : Rpc.Method) (body : Rpc.Bytes) (sink : Rpc.ResponseSink) :
    (peer.send method body sink).2.account = peer.account := by
  unfold send
  split
  · rfl
  · rename_i accepted _
    cases accepted.started <;> rfl

theorem parted_send (warranted : allows.sends) (method : Rpc.Method) (body : Rpc.Bytes)
    (sink : Rpc.ResponseSink) :
    Parting.Steps allows peer.parting (peer.send method body sink).2.parting := by
  unfold send
  split
  · exact Relation.ReflTransGen.refl
  · rename_i accepted accepts
    rw [(changes_enlistCall _ _).parting_eq rfl, peer.parting_accept accepts]
    by_cases isGoodbye : Rpc.Method.goodbye = method
    · rw [if_pos isGoodbye]
      exact Relation.ReflTransGen.single (.accepts warranted)
    · rw [if_neg isGoodbye]
      exact Relation.ReflTransGen.refl

theorem parted_wakeExchange (ticket : Rpc.Ticket) :
    Parting.Steps allows peer.parting (peer.wakeExchange ticket).parting := by
  unfold wakeExchange
  split
  · exact Relation.ReflTransGen.refl
  · rename_i exchange found
    have matched := List.find?_some found
    obtain rfl : exchange.ticket = ticket := eq_of_beq matched
    have woken : ({ peer with exchanges := peer.exchanges.filter (·.ticket != exchange.ticket) }.enlist
        (.goodbyeDue exchange)).parting =
        { peer.parting with
          waiting := peer.parting.waiting.filter (·.ticket != exchange.ticket)
          due := peer.parting.due ++ [exchange] } := by
      simp [parting, enlist, Peer.id, Turn.invited?, Turn.saidTo?, Turn.exchange?]
    rw [woken]
    exact Relation.ReflTransGen.single (.wakes exchange found)

theorem parting_release (method : Rpc.Method) :
    { peer with table := (peer.table.release method).2 }.parting = peer.parting := by
  simp [parting, Peer.id, Rpc.Table.acceptedOf_release]

theorem parted_concludeCall (call : Rpc.Call) (result : Rpc.CallResult) :
    Parting.Steps allows peer.parting (peer.concludeCall call result).parting := by
  obtain ⟨delivered, changes, concluded⟩ := peer.concludeCall_cases call result
  have same : delivered.parting = peer.parting :=
    (changes.parting_eq rfl).trans (peer.parting_release call.method)
  rw [concluded, ← same]
  exact delivered.parted_wakeExchange call.ticket

theorem parted_tellCall (call : Rpc.Call) (outcome : Rpc.CallOutcome) :
    Parting.Steps allows peer.parting (peer.tellCall call outcome).parting := by
  rw [tellCall, ← (peer.changes_sinkNotes call.sink outcome).parting_eq rfl]
  exact parted_concludeCall _ call outcome.result

theorem parted_makeCall (call : Rpc.Call) :
    Parting.Steps allows peer.parting (peer.makeCall call).parting := by
  obtain ⟨called, changes, waits | ⟨result, ends⟩⟩ := peer.makeCall_cases call
  · rw [waits, changes.parting_eq rfl]
  · rw [ends, ← changes.parting_eq rfl]
    exact called.parted_concludeCall call result

end Calls

/-! ## Requests to disconnect -/

section Requests

variable {allows : Leave} (peer : Peer)

theorem parting_disconnectImmediately (record : DisconnectRecord) :
    (peer.disconnectImmediately record).parting =
      peer.parting.leave record [.emitted (.disconnectRequested record false)] := by
  simp [parting, disconnectImmediately, emit, Peer.note, enlist, Peer.id, Parting.leave,
    Note.isParting, Turn.invited?, Turn.saidTo?, Turn.exchange?]

theorem parting_disconnectCleanly (reason : DisconnectReason) :
    (peer.disconnectCleanly reason).2.parting = peer.parting.request reason := by
  cases written : peer.link.record <;>
    simp [parting, disconnectCleanly, emit, Peer.note, enlist, Peer.id, Parting.request,
      Parting.leave, Note.isParting, Turn.invited?, Turn.saidTo?, Turn.exchange?, written]

theorem parting_of_dropped {authority : Authority} {now : Reputation.Instant}
    {adjustment : Reputation.Adjustment}
    (drops : (authority.judge now peer.address adjustment).verdict = .disconnect) :
    (peer.adjust authority now adjustment).parting =
      { peer.parting with
        notes := peer.parting.notes ++
          [Note.emitted (.reputationDisconnect adjustment)] }.request .remoteFault := by
  have judged := peer.parting_judged authority now adjustment
  rw [adjust_eq_disconnectCleanly drops, parting_disconnectCleanly, ← judged]
  congr 1
  simp [emit, Peer.note, parting, Peer.id, Note.isParting]

theorem parting_of_kept {authority : Authority} {now : Reputation.Instant}
    {adjustment : Reputation.Adjustment}
    (keeps : (authority.judge now peer.address adjustment).verdict ≠ .disconnect) :
    (peer.adjust authority now adjustment).parting = peer.parting := by
  rw [adjust_eq_noteAll keeps, peer.parting_judged authority now adjustment]

theorem parted_adjust (authority : Authority) (now : Reputation.Instant)
    (adjustment : Reputation.Adjustment)
    (warranted : (authority.judge now peer.address adjustment).verdict = .disconnect →
      allows.drops adjustment) :
    Parting.Steps allows peer.parting (peer.adjust authority now adjustment).parting := by
  by_cases drops : (authority.judge now peer.address adjustment).verdict = .disconnect
  · rw [peer.parting_of_dropped drops]
    exact Relation.ReflTransGen.single (.drops adjustment (warranted drops))
  · rw [peer.parting_of_kept drops]

end Requests

/-! ## Observers -/

/-- The parting of a peer follows from this one. -/
def Parted (allows : Leave) (start : Parting) (peer : Peer) : Prop :=
  Parting.Steps allows start peer.parting

section Observers

variable {allows : Leave} {start : Parting}

theorem Parted.of_parting {peer later : Peer} (parted : Parted allows start peer)
    (same : later.parting = peer.parting) : Parted allows start later := by
  unfold Parted
  rw [same]
  exact parted

theorem Parted.keptByObservers : KeptByObservers (Parted allows start) where
  registry _ parted := parted.of_parting rfl
  notified _ _ _ parted := parted.of_parting (parting_note _ _ rfl)
  reacted _ _ _ _ parted := parted.of_parting (parting_note _ _ rfl)
  disconnected {peer} name reason parted := by
    have left : Parted allows start (peer.disconnectImmediately ⟨reason, true⟩) := by
      refine Relation.ReflTransGen.tail parted ?_
      rw [parting_disconnectImmediately]
      exact .requestsNow _
    exact left.of_parting (parting_note _ _ rfl)
  disconnectedCleanly {peer} name reason parted := by
    have left : Parted allows start (peer.disconnectCleanly reason).2 := by
      refine Relation.ReflTransGen.tail parted ?_
      rw [parting_disconnectCleanly]
      exact .requestsCleanly reason
    exact left.of_parting (parting_note _ _ rfl)

theorem parted_subscribe (peer : Peer) (observer : Observer) :
    Parting.Steps allows peer.parting (peer.subscribe observer).2.parting :=
  Parted.keptByObservers.subscribe observer Relation.ReflTransGen.refl

theorem parted_announce (peer : Peer) (record : DisconnectRecord) :
    Parting.Steps allows peer.parting (peer.announce record).parting :=
  Parted.keptByObservers.announce record Relation.ReflTransGen.refl

theorem parted_watch (peer : Peer) : Parting.Steps allows peer.parting peer.watch.parting := by
  unfold watch
  split
  · have reported : ({ peer with link := peer.link.markClosed.2, watcher := .ended }.emit
        (.connectionClosed peer.link.markClosed.1)).parting =
        peer.parting.leave .remoteClose
          [.emitted (.connectionClosed (peer.parting.record.getD .remoteClose))] := by
      simp [parting, emit, Peer.note, Peer.id, Parting.leave, Note.isParting]
    have closed : Parting.Step allows peer.parting _ := .closes
    rw [← reported] at closed
    exact (Relation.ReflTransGen.single closed).trans (parted_announce _ _)
  · exact Relation.ReflTransGen.refl

end Observers

/-! ## Goodbyes -/

section Goodbyes

variable {allows : Leave} (peer : Peer)

theorem parting_concludeFarewell (farewell : Farewell) (outcome : GoodbyeOutcome) :
    (peer.concludeFarewell farewell outcome).parting =
      peer.parting.conclude farewell.reason outcome := by
  cases outcome <;>
    simp [parting, concludeFarewell, reportFault, reportPanic, disconnectImmediately, emit, Peer.note,
      enlist, Peer.id, Parting.conclude, Parting.leave, endNotes, Note.isParting, Turn.invited?,
      Turn.saidTo?, Turn.exchange?]

theorem parting_asked (handler : GoodbyeHandler) (reason : DisconnectReason) :
    (peer.note (.goodbyeAsked handler reason)).parting =
      { peer.parting with notes := peer.parting.notes ++ [.goodbyeAsked handler reason] } := by
  simp [parting, Peer.note, Peer.id, Note.isParting]

theorem parting_goodbyeEnded (outcome : GoodbyeOutcome) :
    (peer.note (.goodbyeEnded outcome)).parting =
      { peer.parting with notes := peer.parting.notes ++ [.goodbyeEnded outcome] } := by
  simp [parting, Peer.note, Peer.id, Note.isParting]

/-- A goodbye request that is refused leaves the peer as it is. An accepted one takes the next ticket
of its method. -/
theorem parting_of_sent {reason : DisconnectReason} {sink : Rpc.ResponseSink} {sent : Peer} :
    (peer.send .goodbye reason.goodbyeBody sink = (none, sent) → sent = peer) ∧
      ∀ ticket, peer.send .goodbye reason.goodbyeBody sink = (some ticket, sent) →
        ticket = ⟨.goodbye, peer.parting.accepted⟩ ∧
          sent.parting = { peer.parting with accepted := peer.parting.accepted + 1 } := by
  unfold send
  constructor
  · intro sends
    split at sends
    · exact (Prod.mk.inj sends).2.symm
    · cases sends
  · intro ticket sends
    split at sends
    · cases sends
    · rename_i accepted accepts
      obtain ⟨isTicket, rfl⟩ := Prod.mk.inj sends
      constructor
      · rw [← Option.some.inj isTicket]
        exact Rpc.Table.ticket_accept? accepts
      · rw [(changes_enlistCall _ _).parting_eq rfl, peer.parting_accept accepts, if_pos rfl]

/-- A goodbye request is refused exactly if goodbyes are not served. -/
theorem supports_goodbye_of_sent {body : Rpc.Bytes} {sink : Rpc.ResponseSink}
    {ticket : Option Rpc.Ticket} {sent : Peer} (sends : peer.send .goodbye body sink = (ticket, sent)) :
    peer.table.supports .goodbye = ticket.isSome := by
  have served : (peer.table.accept? .goodbye body sink).isSome = peer.table.supports .goodbye := by
    simp [Rpc.Table.accept?, Rpc.Table.supports]
  unfold send at sends
  split at sends
  · rename_i refused
    obtain ⟨rfl, -⟩ := Prod.mk.inj sends
    rw [← served, refused]
    rfl
  · rename_i accepted accepts
    obtain ⟨rfl, -⟩ := Prod.mk.inj sends
    rw [← served, accepts]
    rfl

/-- What comes of a goodbye request: it fails at once, sent or not, or it waits until its deadline. -/
theorem parting_requestGoodbye (clock : Clock) (caller : GoodbyeCaller) (reason : DisconnectReason)
    (timeoutMs : Nat) :
    (∃ (fault : DisconnectError) (later : Peer),
      (later.parting = peer.parting ∨
        later.parting = { peer.parting with accepted := peer.parting.accepted + 1 }) ∧
      peer.requestGoodbye clock caller reason timeoutMs =
        later.concludeExchange caller reason (.failed fault) ∧
      peer.requestFault? clock timeoutMs = some fault ∧ later.account = peer.account) ∨
    (peer.requestGoodbye clock caller reason timeoutMs).parting =
        peer.parting.await caller reason (clock.now + timeoutMs) clock.turns ∧
      peer.requestFault? clock timeoutMs = none := by
  unfold requestGoodbye requestFault?
  split
  · rename_i refused sends
    rw [(peer.parting_of_sent).1 sends, peer.supports_goodbye_of_sent sends]
    left
    exact ⟨_, peer, .inl rfl, rfl, rfl, rfl⟩
  · rename_i ticket sent sends
    obtain ⟨isTicket, sentParting⟩ := (peer.parting_of_sent).2 ticket sends
    rw [peer.supports_goodbye_of_sent sends]
    dsimp only
    split
    · left
      have unnoted := peer.account_send .goodbye reason.goodbyeBody .discard
      rw [sends] at unnoted
      exact ⟨_, sent, .inr sentParting, rfl, by simp, unnoted⟩
    · right
      refine ⟨?_, by simp⟩
      have waits (exchange : GoodbyeExchange) :
          { sent with exchanges := sent.exchanges ++ [exchange] }.parting =
            { sent.parting with waiting := sent.parting.waiting ++ [exchange] } := rfl
      rw [waits, sentParting, isTicket]
      rfl

theorem parted_beginGoodbye (warranted : allows.sends) (clock : Clock) (reason : DisconnectReason)
    (timeoutMs : Nat) :
    Parting.Steps allows peer.parting (peer.beginGoodbye clock reason timeoutMs).parting := by
  have fails (fault : DisconnectError) (later : Peer) :
      Parting.Step allows later.parting (later.note (.goodbyeEnded (.failed fault))).parting := by
    rw [parting_goodbyeEnded]
    have failed : Parting.Step allows later.parting _ := .failsOutside reason fault
    rw [Parting.answer, Parting.sentNotes, List.append_nil] at failed
    exact failed
  unfold beginGoodbye
  split
  · rcases peer.parting_requestGoodbye clock .outside reason timeoutMs with
      ⟨fault, later, unsent | sent, ends, -⟩ | ⟨waits, -⟩
    · rw [ends, concludeExchange, ← unsent]
      exact Relation.ReflTransGen.single (fails fault later)
    · rw [ends, concludeExchange]
      have accepted : Parting.Step allows peer.parting _ := .accepts warranted
      rw [← sent] at accepted
      exact (Relation.ReflTransGen.single accepted).tail (fails fault later)
    · rw [waits]
      exact Relation.ReflTransGen.single (.sendsOutside warranted reason _ _)
  · exact Relation.ReflTransGen.single (fails _ peer)

/-- The parting before the turn of the clean disconnect that wrote the record. -/
def Parting.inviting (parting : Parting) (farewell : Farewell) : Parting :=
  { parting with invited := farewell :: parting.invited }

theorem parted_requestFarewell (clock : Clock) (farewell : Farewell) (handler : GoodbyeHandler)
    (timeoutMs : Nat)
    (warranted : ∀ fault, peer.requestFault? clock timeoutMs = some fault →
      allows.ends farewell.reason (.failed fault)) :
    Parting.Steps allows (peer.parting.inviting farewell)
      ((peer.note (.goodbyeAsked handler farewell.reason)).requestGoodbye clock
        (.farewell farewell.number) farewell.reason timeoutMs).parting := by
  have asked := peer.parting_asked handler farewell.reason
  rcases (peer.note (.goodbyeAsked handler farewell.reason)).parting_requestGoodbye clock
      (.farewell farewell.number) farewell.reason timeoutMs with
    ⟨fault, later, unsent | sent, ends, fails, -⟩ | ⟨waits, -⟩
  · rw [ends, concludeExchange, parting_concludeFarewell, unsent, asked]
    exact Relation.ReflTransGen.single
      (.answers farewell _ rfl handler (.failed fault) 0 (warranted fault fails))
  · rw [ends, concludeExchange, parting_concludeFarewell, sent, asked]
    exact Relation.ReflTransGen.single
      (.answers farewell _ rfl handler (.failed fault) 1 (warranted fault fails))
  · rw [waits, asked]
    exact Relation.ReflTransGen.single (.sends farewell _ rfl handler _ _)

theorem parted_beginFarewell (clock : Clock) (farewell : Farewell)
    (warranted : ∀ outcome, peer.promptOutcome? clock = some outcome →
      allows.ends farewell.reason outcome) :
    Parting.Steps allows (peer.parting.inviting farewell)
      (peer.beginFarewell clock farewell true).parting := by
  unfold beginFarewell
  simp only [↓reduceIte]
  split
  · rw [parting_concludeFarewell]
    exact Relation.ReflTransGen.single (.lapses farewell _ rfl)
  · rename_i handler installed
    have asked := peer.parting_asked handler farewell.reason
    split
    · rename_i outcome
      rw [parting_concludeFarewell, asked]
      exact Relation.ReflTransGen.single
        (.answers farewell _ rfl _ outcome 0 (warranted outcome (by rw [promptOutcome?, installed])))
    · have held : { peer.note (.goodbyeAsked (.scripted none) farewell.reason) with
          heldGoodbyes := (peer.note (.goodbyeAsked (.scripted none) farewell.reason)).heldGoodbyes ++
            [farewell] }.parting =
          { (peer.note (.goodbyeAsked (.scripted none) farewell.reason)).parting with
            held := peer.parting.held ++ [farewell] } := rfl
      rw [held, asked]
      exact Relation.ReflTransGen.single (.holds farewell _ rfl _)
    · refine peer.parted_requestFarewell clock farewell _ _ fun fault fails => ?_
      exact warranted _ (by simp [promptOutcome?, installed, fails])

theorem parting_logged (reason : DisconnectReason) :
    (peer.note (.logged (peer.goodbyeLine reason))).parting =
      { peer.parting with
        notes := peer.parting.notes ++ [.logged (peer.parting.goodbyeLine reason)] } := by
  have told : (Note.logged (peer.goodbyeLine reason)).isParting = true := rfl
  simp only [parting, Peer.note, Peer.id, List.filter_append, List.filter_cons, told, ↓reduceIte,
    List.filter_nil]
  rfl

theorem exchangeOutcome_ne_panicked (exchange : GoodbyeExchange) (message : Option String) :
    peer.exchangeOutcome exchange ≠ .panicked message := by
  unfold exchangeOutcome
  split <;> nofun

/-- The turn of a goodbye request whose end has come. -/
theorem parted_resumeExchange (exchange : GoodbyeExchange)
    (warranted : ∀ number, exchange.caller = .farewell number →
      allows.ends exchange.reason (peer.exchangeOutcome exchange)) :
    Parting.Steps allows { peer.parting with due := exchange :: peer.parting.due }
      (peer.resumeExchange exchange).parting := by
  -- What is logged first, and then told to whom the request was made for.
  have concludes (logged : Peer) (outcome : GoodbyeOutcome)
      (isOutcome : peer.exchangeOutcome exchange = outcome)
      (returns : ∀ message, outcome ≠ .panicked message)
      (sent : logged.parting = { peer.parting with
        notes := peer.parting.notes ++ peer.parting.sentNotes exchange.reason outcome }) :
      Parting.Steps allows { peer.parting with due := exchange :: peer.parting.due }
        (logged.concludeExchange exchange.caller exchange.reason outcome).parting := by
    refine Relation.ReflTransGen.single ?_
    cases caller : exchange.caller with
    | farewell number =>
        rw [concludeExchange, parting_concludeFarewell, sent]
        exact .ends exchange _ rfl number caller outcome returns
          (isOutcome ▸ warranted number caller)
    | outside =>
        rw [concludeExchange, parting_goodbyeEnded, sent]
        exact .endsOutside exchange _ rfl caller outcome
  have unlogged (fault : DisconnectError) : peer.parting = { peer.parting with
      notes := peer.parting.notes ++ peer.parting.sentNotes exchange.reason (.failed fault) } := by
    rw [Parting.sentNotes, List.append_nil]
  unfold resumeExchange
  dsimp only
  cases isOutcome : peer.exchangeOutcome exchange with
  | said => exact concludes _ .said isOutcome nofun (peer.parting_logged exchange.reason)
  | failed fault => exact concludes peer _ isOutcome nofun (unlogged fault)
  | panicked message => exact absurd isOutcome (peer.exchangeOutcome_ne_panicked exchange message)

theorem parted_tellGoodbye (outcome : GoodbyeOutcome) :
    Parting.Steps allows peer.parting (peer.tellGoodbye outcome).2.parting := by
  unfold tellGoodbye
  split
  · exact Relation.ReflTransGen.refl
  · rename_i farewell rest held
    have told : ({ peer with heldGoodbyes := rest }.enlist (.goodbyeTold farewell outcome)).parting =
        { peer.parting with held := rest, told := peer.parting.told ++ [(farewell, outcome)] } := by
      simp [parting, enlist, Peer.id, Turn.invited?, Turn.saidTo?, Turn.exchange?]
    dsimp only
    rw [told]
    exact Relation.ReflTransGen.single (.tells farewell rest held outcome)

end Goodbyes

/-! ## Every move consists of steps -/

/-- Whether a move sends a request on behalf of somebody outside. -/
def sendsOutside (peer : Peer) : Move → Bool
  | .send _ _ _ => true
  | .turn _ =>
      match peer.line with
      | .goodbye _ _ :: _ => true
      | _ => false
  | _ => false

/-- What a move entitles its steps to: only requests from outside are accepted on their behalf, only
an adjustment is followed by the report of its verdict, and only the goodbye ends whose turn it is. -/
def leaveOf (peer : Peer) (move : Move) : Leave where
  sends := peer.sendsOutside move = true
  drops adjustment := ∃ authority now, move = .adjust authority now adjustment ∧
    (authority.judge now peer.address adjustment).verdict = .disconnect
  ends reason outcome := ∃ number, peer.ends? move = some (⟨number, reason⟩, outcome)

section Moves

variable (peer : Peer)

theorem parted_turn (clock : Clock) :
    Parting.Steps (peer.leaveOf (.turn clock)) peer.parting (peer.move (.turn clock)).parting := by
  cases line : peer.line with
  | nil =>
      rw [move_turn_of_nil line]
  | cons turn rest =>
      rw [move_turn_of_cons line]
      have popped := parting_of_cons line
      have unnoticed (other : turn.isParting = false) :
          peer.parting = { peer with line := rest }.parting := by
        obtain ⟨invited, told, due⟩ := Turn.unread_of_isParting other
        rw [popped, invited, told, due]
        rfl
      cases turn with
      | farewell farewell first =>
          cases first with
          | true =>
              rw [popped]
              refine parted_beginFarewell { peer with line := rest } clock farewell ?_
              exact fun outcome prompt => ⟨farewell.number, ends_of_prompt line prompt⟩
          | false =>
              rw [unnoticed rfl]
              have followed : Parting.Step (peer.leaveOf (.turn clock))
                { peer with line := rest }.parting _ := .follows farewell.reason
              rw [← parting_concludeFarewell] at followed
              exact Relation.ReflTransGen.single followed
      | goodbyeTold farewell outcome =>
          rw [popped, take, parting_concludeFarewell]
          exact Relation.ReflTransGen.single
            (.concludes farewell outcome _ rfl ⟨farewell.number, ends_of_told line⟩)
      | goodbyeDue exchange =>
          rw [popped]
          refine parted_resumeExchange { peer with line := rest } exchange ?_
          exact fun number caller => ⟨number, ends_of_due line caller⟩
      | goodbye reason timeoutMs =>
          rw [unnoticed rfl]
          refine parted_beginGoodbye _ ?_ clock reason timeoutMs
          show peer.sendsOutside (.turn clock) = true
          simp [sendsOutside, line]
      | watch =>
          rw [unnoticed rfl]
          exact parted_watch _
      | close => rw [unnoticed rfl, take, (changes_close _).parting_eq rfl]
      | identify inquirer => rw [unnoticed rfl, take, (changes_identify _ _).parting_eq rfl]
      | identified held =>
          rw [unnoticed rfl, take, (changes_concludeIdentify _ _ _).parting_eq rfl]
      | call call =>
          rw [unnoticed rfl]
          exact parted_makeCall _ call
      | callTold call outcome =>
          rw [unnoticed rfl]
          exact parted_tellCall _ call outcome

theorem parted_move (move : Move) :
    Parting.Steps (peer.leaveOf move) peer.parting (peer.move move).parting := by
  have untouched {later : Peer} (same : later.parting = peer.parting) :
      Parting.Steps (peer.leaveOf move) peer.parting later.parting := by
    rw [same]
  cases move with
  | subscribe observer => exact parted_subscribe peer observer
  | unsubscribe id => exact untouched rfl
  | disconnectImmediately record =>
      rw [Peer.move, parting_disconnectImmediately]
      exact Relation.ReflTransGen.single (.requestsNow record)
  | disconnectCleanly reason =>
      rw [Peer.move, parting_disconnectCleanly]
      exact Relation.ReflTransGen.single (.requestsCleanly reason)
  | adjust authority now adjustment =>
      exact peer.parted_adjust authority now adjustment fun drops => ⟨authority, now, rfl, drops⟩
  | setHandler handler => exact untouched rfl
  | installGoodbye => exact untouched rfl
  | send method body sink => exact peer.parted_send rfl method body sink
  | checkIdentity => exact untouched (peer.changes_checkIdentity.parting_eq rfl)
  | lookUpAgent => exact untouched (peer.parting_enlist _ rfl)
  | askGoodbye reason timeoutMs => exact untouched (peer.parting_enlist _ rfl)
  | remoteClose => exact untouched (peer.changes_closeConnection.parting_eq rfl)
  | prepareIdentify reply => exact untouched rfl
  | releaseIdentify => exact untouched (peer.changes_releaseIdentify.parting_eq rfl)
  | tellCall start outcome =>
      exact untouched ((peer.changes_tellOpenCall start outcome).parting_eq rfl)
  | tellGoodbye outcome => exact peer.parted_tellGoodbye outcome
  | cutStream method => exact untouched (peer.parting_note _ rfl)
  | hold owned => exact untouched rfl
  | wake ticket => exact peer.parted_wakeExchange ticket
  | turn clock => exact peer.parted_turn clock

end Moves

end PeerLink.Peer
