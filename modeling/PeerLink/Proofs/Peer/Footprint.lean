import Mathlib.Logic.Relation
import PeerLink.Proofs.Observer.Registry
import PeerLink.Proofs.Peer.Moves

/-!
Contract: which aspects of a peer an operation can change.

Every operation is a sequence of small changes: a note, a turn for the line, or a new value of one
field. Each change belongs to one aspect of the peer, and an operation is known to stay within a few
of them. Whoever looks at a peer through a view that does not show these aspects sees no difference,
so nothing need be proved of a view for an operation that does not concern it.

Owns: aspects, changes, the footprint of each operation, and what is kept while observers act.

Does not own: the views.
-/

namespace PeerLink.Peer

/-! ## Aspects and changes -/

/-- What a change to a peer is about. -/
inductive Aspect where
  /-- The identity, and the exchanges that ask for it. -/
  | identification
  /-- Calls that have a slot, up to their results. -/
  | call
  /-- The queues of the methods. -/
  | table
  /-- What the connection answers next. -/
  | replies
  /-- Requests to disconnect: the record, and what was put in the line for them. -/
  | request
  /-- The connection is asked to close. -/
  | asking
  /-- The connection is closed, and the watcher sees it. -/
  | closing
  /-- Observers, and what they and the log are told of the close. -/
  | telling
  /-- Goodbyes that wait for their turn or their end. -/
  | waiting
  /-- Handlers that are asked, and clean disconnects that are over. -/
  | goodbye
  /-- Verdicts, faults and ends of goodbyes that are reported. -/
  | report
deriving DecidableEq

def Note.aspect : Note → Aspect
  | identifyAsked _ | identified _ _ | emitted (.identityResolved _)
  | emitted (.identityLookupFailed _) => .identification
  | called _ | started _ _ | responded _ _ | responseEnded _ _ | streamCut _ => .call
  | emitted (.disconnectRequested _ _) => .request
  | closeAsked | emitted (.connectionCloseFailed _) => .asking
  | notified _ _ _ | reacted _ _ | emitted (.connectionClosed _) => .telling
  | goodbyeAsked _ _ => .goodbye
  | goodbyeEnded _ | judged _ | logged _ | emitted (.reputationDisconnect _)
  | emitted (.cleanDisconnectFailed _ _) | emitted (.invariantViolation _ _) => .report

def Turn.aspect : Turn → Aspect
  | watch => .closing
  | close | farewell _ _ => .request
  | goodbye _ _ | goodbyeTold _ _ | goodbyeDue _ => .waiting
  | identify _ | identified _ => .identification
  | call _ | callTold _ _ => .call

/-- A small change to a peer, with the aspect that it is about. -/
inductive Change (before : Peer) : Aspect → Peer → Prop where
  | note (note : Note) : Change before note.aspect (before.note note)
  | enlist (turn : Turn) : Change before turn.aspect (before.enlist turn)
  | identity (identity : IdentitySlot) :
      Change before .identification { before with identity := identity }
  | heldIdentifies (held : List HeldIdentify) :
      Change before .identification { before with heldIdentifies := held }
  | openCalls (openCalls : List OpenCall) :
      Change before .call { before with openCalls := openCalls }
  | starts (starts : Nat) : Change before .call { before with starts := starts }
  | results (results : List (Rpc.Ticket × Rpc.CallResult)) :
      Change before .call { before with results := results }
  | table (table : Rpc.Table) : Change before .table { before with table := table }
  /-- The connection goes on as open or as closed as it was. -/
  | replies (connection : Connection) (same : connection.closed = before.connection.closed) :
      Change before .replies { before with connection := connection }
  | link (link : DisconnectState) : Change before .request { before with link := link }
  | farewells (farewells : Nat) : Change before .request { before with farewells := farewells }
  | closes :
      Change before .closing { before with connection := { before.connection with closed := true } }
  | watcher (watcher : Watcher) : Change before .closing { before with watcher := watcher }
  | observers (observers : Registry Observer) :
      Change before .telling { before with observers := observers }
  | heldGoodbyes (held : List Farewell) :
      Change before .waiting { before with heldGoodbyes := held }
  | exchanges (exchanges : List GoodbyeExchange) :
      Change before .waiting { before with exchanges := exchanges }
  | farewellsEnded (ended : List Nat) :
      Change before .goodbye { before with farewellsEnded := ended }

/-- Changes of these aspects, and no others, lead from one peer to the other. -/
def ChangesOnly (before : Peer) (aspects : List Aspect) (after : Peer) : Prop :=
  Relation.ReflTransGen (fun earlier later => ∃ aspect ∈ aspects, Change earlier aspect later)
    before after

namespace ChangesOnly

variable {before middle after : Peer} {aspects wider : List Aspect} {aspect : Aspect}

theorem refl (peer : Peer) (aspects : List Aspect) : peer.ChangesOnly aspects peer :=
  Relation.ReflTransGen.refl

theorem trans (first : before.ChangesOnly aspects middle)
    (second : middle.ChangesOnly aspects after) : before.ChangesOnly aspects after :=
  Relation.ReflTransGen.trans first second

/-- One more change, of an aspect that is listed. -/
theorem change (first : before.ChangesOnly aspects middle) (last : Change middle aspect after)
    (listed : aspects.contains aspect = true) : before.ChangesOnly aspects after :=
  Relation.ReflTransGen.tail first ⟨aspect, List.contains_iff_mem.mp listed, last⟩

theorem within (changes : before.ChangesOnly aspects after)
    (listed : aspects.all wider.contains = true) : before.ChangesOnly wider after := by
  refine Relation.ReflTransGen.mono ?_ _ _ changes
  rintro earlier later ⟨aspect, member, change⟩
  exact ⟨aspect, List.contains_iff_mem.mp (List.all_eq_true.mp listed aspect member), change⟩

/-- A view that shows none of the aspects shows no difference. -/
theorem view_eq {α : Type} {view : Peer → α} {shows : Aspect → Bool}
    (blind : ∀ {earlier later : Peer} {aspect : Aspect}, Change earlier aspect later →
      shows aspect = false → view later = view earlier)
    (changes : before.ChangesOnly aspects after) (unseen : aspects.any shows = false) :
    view after = view before := by
  induction changes with
  | refl => rfl
  | tail _ last inductionHypothesis =>
      obtain ⟨aspect, member, change⟩ := last
      have hidden := List.any_eq_false.mp unseen aspect member
      exact (blind change (Bool.eq_false_iff.mpr hidden)).trans inductionHypothesis

end ChangesOnly

/-! ## What observers keep -/

/-- What everything that observers do to their own peer keeps, and everything that is done to them. -/
structure KeptByObservers (holds : Peer → Prop) : Prop where
  registry {peer : Peer} (observers : Registry Observer) :
    holds peer → holds { peer with observers := observers }
  notified {peer : Peer} (id : SubscriptionId) (name : String) (record : DisconnectRecord) :
    holds peer → holds (peer.note (.notified id name record))
  /-- A deed other than a request to disconnect. -/
  reacted {peer : Peer} (name : String) (deed : Deed) :
    deed ≠ .disconnected → deed ≠ .disconnectedCleanly →
      holds peer → holds (peer.note (.reacted name deed))
  disconnected {peer : Peer} (name : String) (reason : Option DisconnectReason) :
    holds peer →
      holds ((peer.disconnectImmediately ⟨reason, true⟩).note (.reacted name .disconnected))
  disconnectedCleanly {peer : Peer} (name : String) (reason : DisconnectReason) :
    holds peer →
      holds ((peer.disconnectCleanly reason).2.note (.reacted name .disconnectedCleanly))

namespace KeptByObservers

variable {holds : Peer → Prop}

theorem react (kept : KeptByObservers holds) (name : String) (reaction : Reaction) (peer : Peer)
    (initially : holds peer) : holds (react name reaction peer).2 := by
  unfold Peer.react
  cases reaction with
  | panic => exact initially
  | subscribe inner =>
      dsimp only
      split
      · exact initially
      · rename_i id observers _
        have joined := kept.registry observers initially
        dsimp only
        split
        · exact kept.reacted name _ nofun nofun (kept.notified id inner _ joined)
        · exact kept.reacted name _ nofun nofun joined
  | unsubscribe id =>
      exact kept.reacted name _ nofun nofun
        (kept.registry (peer.observers.unsubscribe id).2 initially)
  | disconnect reason => exact kept.disconnected name reason initially
  | disconnectCleanly reason => exact kept.disconnectedCleanly name reason initially
  | look => exact kept.reacted name _ nofun nofun initially

theorem callObserver (kept : KeptByObservers holds) (record : DisconnectRecord)
    (subscribed : SubscriptionId × Observer) (peer : Peer) (initially : holds peer) :
    holds (callObserver record subscribed peer).2 :=
  Registry.callEach_preserves (kept.react subscribed.2.name) subscribed.2.reactions
    (kept.notified subscribed.1 subscribed.2.name record initially)

theorem subscribe (kept : KeptByObservers holds) {peer : Peer} (observer : Observer)
    (initially : holds peer) : holds (peer.subscribe observer).2 := by
  unfold Peer.subscribe
  split
  · exact initially
  · rename_i id observers _
    have joined := kept.registry observers initially
    dsimp only
    split
    · exact joined
    · rename_i record _
      have called := kept.callObserver record (id, observer) _ joined
      split <;> rename_i equal <;> rw [equal] at called <;> exact called

theorem announce (kept : KeptByObservers holds) {peer : Peer} (record : DisconnectRecord)
    (initially : holds peer) : holds (peer.announce record) := by
  unfold Peer.announce
  split
  · exact initially
  · rename_i waiting observers _
    exact Registry.callEach_preserves (kept.callObserver record) waiting
      (kept.registry observers initially)

end KeptByObservers

/-! ## The footprint of each operation -/

/-! ### Notes and turns -/

section Notes

variable (peer : Peer)

theorem changes_note (note : Note) : peer.ChangesOnly [note.aspect] (peer.note note) :=
  (ChangesOnly.refl peer _).change (.note note) (by simp)

theorem changes_enlist (turn : Turn) : peer.ChangesOnly [turn.aspect] (peer.enlist turn) :=
  (ChangesOnly.refl peer _).change (.enlist turn) (by simp)

theorem changes_noteAll {notes : List Note} {aspects : List Aspect}
    (listed : ∀ note ∈ notes, aspects.contains note.aspect = true) :
    peer.ChangesOnly aspects (peer.noteAll notes) := by
  induction notes generalizing peer with
  | nil =>
      rw [noteAll, List.append_nil]
      exact ChangesOnly.refl peer _
  | cons first rest inductionHypothesis =>
      obtain ⟨here, others⟩ := List.forall_mem_cons.mp listed
      have noted : peer.noteAll (first :: rest) = (peer.note first).noteAll rest := by
        simp [noteAll, Peer.note]
      rw [noted]
      exact ((ChangesOnly.refl peer _).change (.note first) here).trans
        (inductionHypothesis (peer.note first) others)

end Notes

/-! ### Calls -/

section Calls

variable (peer : Peer)

theorem changes_enlistCall (call : Option Rpc.Call) :
    peer.ChangesOnly [.call] (peer.enlistCall call) := by
  cases call with
  | none => exact ChangesOnly.refl peer _
  | some call => exact peer.changes_enlist (.call call)

theorem changes_send (method : Rpc.Method) (body : Rpc.Bytes) (sink : Rpc.ResponseSink) :
    peer.ChangesOnly [.call, .table] (peer.send method body sink).2 := by
  unfold send
  split
  · exact ChangesOnly.refl peer _
  · exact ((ChangesOnly.refl peer _).change (.table _) rfl).trans
      ((changes_enlistCall _ _).within rfl)

theorem changes_wakeExchange (ticket : Rpc.Ticket) :
    peer.ChangesOnly [.waiting] (peer.wakeExchange ticket) := by
  unfold wakeExchange
  split
  · exact ChangesOnly.refl peer _
  · exact ((ChangesOnly.refl peer _).change (.exchanges _) rfl).change
      (.enlist (.goodbyeDue _)) rfl

/-- A call that ends gives its slot back; whoever waits for its result is woken last. -/
theorem concludeCall_cases (call : Rpc.Call) (result : Rpc.CallResult) :
    ∃ delivered : Peer,
      { peer with table := (peer.table.release call.method).2 }.ChangesOnly [.call] delivered ∧
        peer.concludeCall call result = delivered.wakeExchange call.ticket :=
  ⟨_, (changes_enlistCall _ _).change (.results _) rfl, rfl⟩

theorem changes_sinkNotes (sink : Rpc.ResponseSink) (outcome : Rpc.CallOutcome) :
    peer.ChangesOnly [.call] (peer.noteAll (sinkNotes sink outcome)) :=
  peer.changes_noteAll (forall_mem_sinkNotes (fun _ _ => rfl) (fun _ _ => rfl) _ _)

/-- A call that is made waits for the remote side, or ends in the same turn. -/
theorem makeCall_cases (call : Rpc.Call) :
    ∃ called : Peer, peer.ChangesOnly [.call, .replies] called ∧
      (peer.makeCall call = called ∨
        ∃ result, peer.makeCall call = called.concludeCall call result) := by
  have opened : peer.ChangesOnly [.call, .replies]
      { peer.note (.called call) with connection := peer.connection.openStream.2 } :=
    ((ChangesOnly.refl peer _).change (.note (.called call)) rfl).change
      (.replies _ (Connection.closed_openStream _)) rfl
  have started := (opened.change (.starts (peer.starts + 1)) rfl).change
    (.note (.started peer.starts call)) rfl
  have returned (outcome : Rpc.CallOutcome) :=
    started.trans ((changes_sinkNotes _ call.sink outcome).within rfl)
  unfold makeCall
  dsimp only
  split
  · exact ⟨_, opened, .inr ⟨_, rfl⟩⟩
  · split
    · exact ⟨_, returned _, .inr ⟨_, rfl⟩⟩
    · exact ⟨_, returned _, .inr ⟨_, rfl⟩⟩
    · exact ⟨_, started.change (.openCalls _) rfl, .inl rfl⟩

theorem changes_concludeCall (call : Rpc.Call) (result : Rpc.CallResult) :
    peer.ChangesOnly [.call, .table, .waiting] (peer.concludeCall call result) := by
  obtain ⟨delivered, changes, concluded⟩ := peer.concludeCall_cases call result
  rw [concluded]
  exact ((ChangesOnly.refl peer _).change (.table _) rfl).trans
    ((changes.within rfl).trans ((delivered.changes_wakeExchange _).within rfl))

theorem changes_tellCall (call : Rpc.Call) (outcome : Rpc.CallOutcome) :
    peer.ChangesOnly [.call, .table, .waiting] (peer.tellCall call outcome) :=
  ((peer.changes_sinkNotes call.sink outcome).within rfl).trans
    (changes_concludeCall _ call outcome.result)

theorem changes_makeCall (call : Rpc.Call) :
    peer.ChangesOnly [.call, .table, .waiting, .replies] (peer.makeCall call) := by
  obtain ⟨called, changes, waits | ⟨result, ends⟩⟩ := peer.makeCall_cases call
  · rw [waits]
    exact changes.within rfl
  · rw [ends]
    exact (changes.within rfl).trans ((called.changes_concludeCall call result).within rfl)

theorem changes_tellOpenCall (start : Nat) (outcome : Rpc.CallOutcome) :
    peer.ChangesOnly [.call] (peer.tellOpenCall start outcome).2 := by
  unfold tellOpenCall
  split
  · exact ChangesOnly.refl peer _
  · exact ((ChangesOnly.refl peer _).change (.openCalls _) rfl).change
      (.enlist (.callTold _ _)) rfl

end Calls

/-! ### Identify exchanges -/

section Identification

variable (peer : Peer)

theorem changes_checkIdentity : peer.ChangesOnly [.identification] peer.checkIdentity := by
  unfold checkIdentity
  split
  · exact ChangesOnly.refl peer _
  · exact peer.changes_enlist (.identify .check)

theorem changes_concludeIdentify (inquirer : Inquirer) (outcome : Identification) :
    peer.ChangesOnly [.identification] (peer.concludeIdentify inquirer outcome) := by
  have noted := peer.changes_note (.identified inquirer outcome)
  unfold concludeIdentify
  split
  · exact (noted.change (.identity _) rfl).change (.note (.emitted (.identityResolved _))) rfl
  · exact noted.change (.note (.emitted (.identityLookupFailed _))) rfl
  · exact noted
  · exact noted

theorem changes_identify (inquirer : Inquirer) :
    peer.ChangesOnly [.identification, .replies] (peer.identify inquirer) := by
  have asked : peer.ChangesOnly [.identification, .replies]
      ({ peer with connection := peer.connection.identify.2 }.note (.identifyAsked inquirer)) :=
    ((ChangesOnly.refl peer _).change (.replies _ (Connection.closed_identify _)) rfl).change
      (.note (.identifyAsked inquirer)) rfl
  unfold identify
  dsimp only
  split
  · exact asked.change (.heldIdentifies _) rfl
  · exact asked.trans ((changes_concludeIdentify _ _ _).within rfl)

theorem changes_releaseIdentify : peer.ChangesOnly [.identification] peer.releaseIdentify.2 := by
  unfold releaseIdentify
  split
  · exact ChangesOnly.refl peer _
  · exact ((ChangesOnly.refl peer _).change (.heldIdentifies _) rfl).change
      (.enlist (.identified _)) rfl

end Identification

/-! ### Leaving -/

section Leaving

variable (peer : Peer)

theorem changes_disconnectImmediately (record : DisconnectRecord) :
    peer.ChangesOnly [.request] (peer.disconnectImmediately record) :=
  (((ChangesOnly.refl peer _).change (.link _) rfl).change
    (.note (.emitted (.disconnectRequested record false))) rfl).change (.enlist .close) rfl

theorem changes_disconnectCleanly (reason : DisconnectReason) :
    peer.ChangesOnly [.request] (peer.disconnectCleanly reason).2 := by
  have recorded := ((ChangesOnly.refl peer [.request]).change
    (.link (peer.link.recordDisconnect ⟨some reason, true⟩).2) rfl).change
      (.farewells (peer.farewells + 1)) rfl
  have reported := recorded.change
    (.note (.emitted (.disconnectRequested ⟨some reason, true⟩ true))) rfl
  exact reported.change (.enlist (.farewell _ _)) rfl

/-- An authority that follows a script notes that it was asked; one that keeps scores may log. -/
theorem forall_mem_judge {authority : Authority} {now : Reputation.Instant} {address : PeerAddress}
    {adjustment : Reputation.Adjustment} {holds : Note → Prop} (judged : holds (.judged adjustment))
    (logged : ∀ line, holds (.logged line)) :
    ∀ note ∈ (authority.judge now address adjustment).notes, holds note := by
  intro note member
  unfold Authority.judge at member
  split at member
  · rw [List.mem_singleton.mp member]
    exact judged
  · obtain ⟨line, -, rfl⟩ := List.mem_map.mp member
    exact logged line

theorem changes_judged (authority : Authority) (now : Reputation.Instant)
    (adjustment : Reputation.Adjustment) :
    peer.ChangesOnly [.report]
      (peer.noteAll (authority.judge now peer.address adjustment).notes) :=
  peer.changes_noteAll (forall_mem_judge rfl fun _ => rfl)

theorem changes_adjust (authority : Authority) (now : Reputation.Instant)
    (adjustment : Reputation.Adjustment) :
    peer.ChangesOnly [.report, .request] (peer.adjust authority now adjustment) := by
  have judged : peer.ChangesOnly [.report, .request] _ :=
    (peer.changes_judged authority now adjustment).within rfl
  by_cases drops : (authority.judge now peer.address adjustment).verdict = .disconnect
  · rw [adjust_eq_disconnectCleanly drops]
    exact (judged.change (.note (.emitted (.reputationDisconnect adjustment))) rfl).trans
      ((changes_disconnectCleanly _ _).within rfl)
  · rw [adjust_eq_noteAll drops]
    exact judged

theorem changes_closeConnection : peer.ChangesOnly [.closing] peer.closeConnection := by
  have closed := (ChangesOnly.refl peer [.closing]).change .closes rfl
  unfold closeConnection
  dsimp only
  split
  · exact (closed.change (.watcher .inLine) rfl).change (.enlist .watch) rfl
  · exact closed
  · exact closed

theorem changes_askClose :
    peer.ChangesOnly [.asking, .replies]
      ({ peer with connection := peer.connection.nextClose.2 }.note .closeAsked) :=
  ((ChangesOnly.refl peer _).change (.replies _ (Connection.closed_nextClose _)) rfl).change
    (.note .closeAsked) rfl

theorem changes_close : peer.ChangesOnly [.asking, .closing, .replies] peer.close := by
  have asked : peer.ChangesOnly [.asking, .closing, .replies]
      ({ peer with connection := peer.connection.nextClose.2 }.note .closeAsked) :=
    peer.changes_askClose.within rfl
  unfold close
  dsimp only
  split
  · exact asked.trans ((changes_closeConnection _).within rfl)
  · exact asked
  · exact asked.change (.note (.emitted (.connectionCloseFailed _))) rfl

end Leaving

/-! ### Goodbyes -/

section Goodbyes

variable (peer : Peer)

theorem changes_reportFault (reason : DisconnectReason) (outcome : GoodbyeOutcome) :
    peer.ChangesOnly [.report] (peer.reportFault reason outcome) := by
  cases outcome with
  | failed fault => exact peer.changes_note (.emitted (.cleanDisconnectFailed reason fault.text))
  | said | panicked => exact ChangesOnly.refl peer _

theorem changes_reportPanic (outcome : GoodbyeOutcome) :
    peer.ChangesOnly [.report] (peer.reportPanic outcome) := by
  cases outcome with
  | panicked message => exact peer.changes_note (.emitted (.invariantViolation _ _))
  | said | failed => exact ChangesOnly.refl peer _

theorem changes_concludeFarewell (farewell : Farewell) (outcome : GoodbyeOutcome) :
    peer.ChangesOnly [.report, .request, .goodbye] (peer.concludeFarewell farewell outcome) := by
  have left : peer.ChangesOnly [.report, .request, .goodbye]
      ((peer.reportFault farewell.reason outcome).disconnectImmediately
        ⟨some farewell.reason, true⟩) :=
    ((changes_reportFault _ _ _).within rfl).trans ((changes_disconnectImmediately _ _).within rfl)
  have reported := left.trans ((changes_reportPanic _ outcome).within rfl)
  exact reported.change (.farewellsEnded _) rfl

/-- A caller outside is told how its request ended. -/
theorem changes_concludeOutside (reason : DisconnectReason) (outcome : GoodbyeOutcome) :
    peer.ChangesOnly [.report] (peer.concludeExchange .outside reason outcome) :=
  peer.changes_note (.goodbyeEnded outcome)

theorem changes_concludeExchange (caller : GoodbyeCaller) (reason : DisconnectReason)
    (outcome : GoodbyeOutcome) :
    peer.ChangesOnly [.report, .request, .goodbye]
      (peer.concludeExchange caller reason outcome) := by
  cases caller with
  | farewell number => exact peer.changes_concludeFarewell ⟨number, reason⟩ outcome
  | outside => exact (peer.changes_concludeOutside reason outcome).within rfl

/-- A goodbye request that was said is logged before whoever made it is told. -/
theorem resumeExchange_cases (exchange : GoodbyeExchange) :
    ∃ logged : Peer, peer.ChangesOnly [.report] logged ∧
      peer.resumeExchange exchange =
        logged.concludeExchange exchange.caller exchange.reason (peer.exchangeOutcome exchange) := by
  unfold resumeExchange
  dsimp only
  split
  · exact ⟨_, peer.changes_note (.logged (peer.goodbyeLine exchange.reason)), rfl⟩
  · exact ⟨peer, ChangesOnly.refl peer _, rfl⟩
  · exact ⟨peer, ChangesOnly.refl peer _, rfl⟩

theorem changes_resumeExchange (exchange : GoodbyeExchange) :
    peer.ChangesOnly [.report, .request, .goodbye] (peer.resumeExchange exchange) := by
  obtain ⟨logged, changes, resumed⟩ := peer.resumeExchange_cases exchange
  rw [resumed]
  exact (changes.within rfl).trans (logged.changes_concludeExchange _ _ _)

/-- A goodbye request waits, or ends in the turn that makes it. -/
theorem requestGoodbye_cases (clock : Clock) (caller : GoodbyeCaller) (reason : DisconnectReason)
    (timeoutMs : Nat) :
    ∃ sent : Peer, peer.ChangesOnly [.call, .table, .waiting] sent ∧
      (peer.requestGoodbye clock caller reason timeoutMs = sent ∨
        ∃ outcome, peer.requestGoodbye clock caller reason timeoutMs =
          sent.concludeExchange caller reason outcome) := by
  have sent : peer.ChangesOnly [.call, .table, .waiting] _ :=
    (peer.changes_send .goodbye reason.goodbyeBody .discard).within rfl
  unfold requestGoodbye
  split <;> rename_i equal <;> rw [equal] at sent
  · exact ⟨_, sent, .inr ⟨_, rfl⟩⟩
  · dsimp only
    split
    · exact ⟨_, sent, .inr ⟨_, rfl⟩⟩
    · exact ⟨_, sent.change (.exchanges _) rfl, .inl rfl⟩

theorem changes_requestGoodbye (clock : Clock) (caller : GoodbyeCaller) (reason : DisconnectReason)
    (timeoutMs : Nat) :
    peer.ChangesOnly [.report, .request, .goodbye, .call, .table, .waiting]
      (peer.requestGoodbye clock caller reason timeoutMs) := by
  obtain ⟨sent, changes, waits | ⟨outcome, ends⟩⟩ :=
    peer.requestGoodbye_cases clock caller reason timeoutMs
  · rw [waits]
    exact changes.within rfl
  · rw [ends]
    exact (changes.within rfl).trans ((sent.changes_concludeExchange _ _ _).within rfl)

/-- A goodbye request for a caller outside asks for no disconnect. -/
theorem changes_beginGoodbye (clock : Clock) (reason : DisconnectReason) (timeoutMs : Nat) :
    peer.ChangesOnly [.report, .call, .table, .waiting]
      (peer.beginGoodbye clock reason timeoutMs) := by
  unfold beginGoodbye
  split
  · obtain ⟨sent, changes, waits | ⟨outcome, ends⟩⟩ :=
      peer.requestGoodbye_cases clock .outside reason timeoutMs
    · rw [waits]
      exact changes.within rfl
    · rw [ends]
      exact (changes.within rfl).trans ((sent.changes_concludeOutside _ _).within rfl)
  · exact (ChangesOnly.refl peer _).change (.note (.goodbyeEnded _)) rfl

theorem changes_beginFarewell (clock : Clock) (farewell : Farewell) (first : Bool) :
    peer.ChangesOnly [.report, .request, .goodbye, .call, .table, .waiting]
      (peer.beginFarewell clock farewell first) := by
  unfold beginFarewell
  split
  · split
    · exact (peer.changes_concludeFarewell _ _).within rfl
    · rename_i handler _
      have asked := (ChangesOnly.refl peer
        [.report, .request, .goodbye, .call, .table, .waiting]).change
          (.note (.goodbyeAsked handler farewell.reason)) rfl
      dsimp only
      split
      · exact asked.trans ((changes_concludeFarewell _ _ _).within rfl)
      · exact asked.change (.heldGoodbyes _) rfl
      · exact asked.trans (changes_requestGoodbye _ _ _ _ _)
  · exact (peer.changes_concludeFarewell _ _).within rfl

theorem changes_tellGoodbye (outcome : GoodbyeOutcome) :
    peer.ChangesOnly [.waiting] (peer.tellGoodbye outcome).2 := by
  unfold tellGoodbye
  split
  · exact ChangesOnly.refl peer _
  · exact ((ChangesOnly.refl peer _).change (.heldGoodbyes _) rfl).change
      (.enlist (.goodbyeTold _ _)) rfl

end Goodbyes

/-! ### Observers -/

section Observers

variable (peer : Peer)

theorem ChangesOnly.keptByObservers :
    KeptByObservers (peer.ChangesOnly [.telling, .request]) where
  registry observers changes := changes.change (.observers observers) rfl
  notified id name record changes := changes.change (.note (.notified id name record)) rfl
  reacted name deed _ _ changes := changes.change (.note (.reacted name deed)) rfl
  disconnected name _ changes :=
    (changes.trans ((changes_disconnectImmediately _ _).within rfl)).change
      (.note (.reacted name .disconnected)) rfl
  disconnectedCleanly name reason changes :=
    (changes.trans ((changes_disconnectCleanly _ reason).within rfl)).change
      (.note (.reacted name .disconnectedCleanly)) rfl

theorem changes_subscribe (observer : Observer) :
    peer.ChangesOnly [.telling, .request] (peer.subscribe observer).2 :=
  (ChangesOnly.keptByObservers peer).subscribe observer (ChangesOnly.refl peer _)

theorem changes_announce (record : DisconnectRecord) :
    peer.ChangesOnly [.telling, .request] (peer.announce record) :=
  (ChangesOnly.keptByObservers peer).announce record (ChangesOnly.refl peer _)

theorem changes_watch : peer.ChangesOnly [.telling, .request, .closing] peer.watch := by
  unfold watch
  split
  · have seen : peer.ChangesOnly [.telling, .request, .closing]
        ({ peer with link := peer.link.markClosed.2, watcher := .ended }.emit
          (.connectionClosed peer.link.markClosed.1)) :=
      (((ChangesOnly.refl peer _).change (.link peer.link.markClosed.2) rfl).change
        (.watcher .ended) rfl).change
          (.note (.emitted (.connectionClosed peer.link.markClosed.1))) rfl
    exact seen.trans ((changes_announce _ _).within rfl)
  · exact (ChangesOnly.refl peer _).change (.watcher .waiting) rfl

end Observers

end PeerLink.Peer
