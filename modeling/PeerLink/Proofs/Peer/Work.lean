import PeerLink.Proofs.Peer.Moves
import PeerLink.Proofs.Rpc.Table

/-!
Contract: what a turn adds to the line, and the work that bounds the turns to come.

`Grows` is what all parts of a turn have in common: they add to the line and to the account at the
end, keep the methods that are served, and use no more than so much of the work. A turn costs less
than it counts in the line, so the work bounds how many turns can follow before the line is empty.

Owns: the cost of every part of a turn, and that a peer left to itself comes to rest.

Does not own: what the turns achieve.
-/

namespace PeerLink.Peer

structure Grows (cost : Nat) (before after : Peer) : Prop where
  line : before.line <+: after.line
  account : before.account <+: after.account
  served : after.table.served = before.table.served
  work : after.work ≤ before.work + cost

namespace Grows

variable {cost other : Nat} {before middle after : Peer}

theorem refl (peer : Peer) : peer.Grows 0 peer :=
  ⟨List.prefix_rfl, List.prefix_rfl, rfl, Nat.le_refl _⟩

theorem trans (first : before.Grows cost middle) (second : middle.Grows other after) :
    before.Grows (cost + other) after where
  line := first.line.trans second.line
  account := first.account.trans second.account
  served := second.served.trans first.served
  work := by
    have firstWork := first.work
    have secondWork := second.work
    omega

theorem followedBy (first : before.Grows 0 middle) (second : middle.Grows cost after) :
    before.Grows cost after :=
  Nat.zero_add cost ▸ first.trans second

theorem mono (grows : before.Grows cost after) (enough : cost ≤ other) : before.Grows other after :=
  { grows with work := Nat.le_trans grows.work (Nat.add_le_add_left enough _) }

theorem distinct (grows : before.Grows cost after) (distinct : before.table.Distinct) :
    after.table.Distinct := by
  unfold Rpc.Table.Distinct
  rw [grows.served]
  exact distinct

end Grows

section Costs

variable (peer : Peer)

/-! ## Notes, places in the line, and the connection -/

theorem grows_note (note : Note) : peer.Grows 0 (peer.note note) :=
  ⟨List.prefix_rfl, List.prefix_append _ _, rfl, Nat.le_refl _⟩

theorem grows_noteAll (notes : List Note) : peer.Grows 0 (peer.noteAll notes) :=
  ⟨List.prefix_rfl, List.prefix_append _ _, rfl, Nat.le_refl _⟩

theorem grows_emit (occurrence : Occurrence) : peer.Grows 0 (peer.emit occurrence) :=
  peer.grows_note _

theorem work_line (line : List Turn) :
    { peer with line := line }.work + total Turn.weight peer.line =
      peer.work + total Turn.weight line := by
  simp only [work]
  omega

theorem grows_enlist (turn : Turn) : peer.Grows turn.weight (peer.enlist turn) where
  line := List.prefix_append _ _
  account := List.prefix_rfl
  served := rfl
  work := by
    have enlisted := peer.work_line (peer.line ++ [turn])
    rw [total_append, total_cons, total_nil] at enlisted
    show { peer with line := peer.line ++ [turn] }.work ≤ _
    omega

theorem grows_connection {connection : Connection}
    (same : connection.closed = peer.connection.closed) :
    peer.Grows 0 { peer with connection := connection } where
  line := List.prefix_rfl
  account := List.prefix_rfl
  served := rfl
  work := by
    simp only [work, same]
    exact Nat.le_refl _

/-! ## Calls -/

/-- A new table in which fewer calls wait pays for a call that it starts. -/
theorem grows_table {table : Rpc.Table} {started : Option Rpc.Call} {cost : Nat}
    (served : table.served = peer.table.served)
    (waiting : table.waiting + started.toList.length ≤ peer.table.waiting + cost) :
    peer.Grows cost ({ peer with table := table }.enlistCall started) := by
  have work_eq (later : Rpc.Table) :
      { peer with table := later }.work + peer.table.waiting = peer.work + later.waiting := by
    simp only [work, Rpc.Table.waiting]
    omega
  have replaced := work_eq table
  cases started with
  | none =>
      refine ⟨List.prefix_rfl, List.prefix_rfl, served, ?_⟩
      simp only [enlistCall, Option.toList_none, List.length_nil] at waiting ⊢
      omega
  | some call =>
      have enlisted := grows_enlist { peer with table := table } (.call call)
      refine ⟨enlisted.line, enlisted.account, served, ?_⟩
      have enlistedWork := enlisted.work
      simp only [enlistCall, Option.toList_some, List.length_singleton, Turn.weight] at *
      omega

theorem grows_send (distinct : peer.table.Distinct) (method : Rpc.Method) (body : Rpc.Bytes)
    (sink : Rpc.ResponseSink) : peer.Grows 1 (peer.send method body sink).2 := by
  unfold send
  split
  · exact (Grows.refl peer).mono (Nat.zero_le 1)
  · rename_i accepted accepts
    exact peer.grows_table (Rpc.Table.served_accept? accepts)
      (Nat.le_of_eq (Rpc.Table.waiting_accept? distinct accepts))

theorem grows_wakeExchange (ticket : Rpc.Ticket) : peer.Grows 0 (peer.wakeExchange ticket) := by
  unfold wakeExchange
  split
  · exact Grows.refl peer
  · rename_i exchange found
    -- The exchange that is found is one of those that go.
    have fewer : (peer.exchanges.filter (·.ticket != ticket)).length < peer.exchanges.length := by
      refine List.length_filter_lt_length_iff_exists.mpr ⟨exchange, List.mem_of_find?_eq_some found, ?_⟩
      simpa using List.find?_some found
    have enlisted := grows_enlist
      { peer with exchanges := peer.exchanges.filter (·.ticket != ticket) } (.goodbyeDue exchange)
    refine ⟨enlisted.line, enlisted.account, rfl, ?_⟩
    have enlistedWork := enlisted.work
    simp only [work, Turn.weight] at enlistedWork ⊢
    omega

theorem grows_concludeCall (distinct : peer.table.Distinct) (call : Rpc.Call)
    (result : Rpc.CallResult) : peer.Grows 0 (peer.concludeCall call result) := by
  have released : peer.Grows 0 ({ peer with table := (peer.table.release call.method).2 }.enlistCall
      (peer.table.release call.method).1) :=
    peer.grows_table Rpc.Table.served_release (Nat.le_of_eq (Rpc.Table.waiting_release distinct))
  unfold concludeCall
  dsimp only
  generalize { peer with table := (peer.table.release call.method).2 }.enlistCall
    (peer.table.release call.method).1 = later at released
  have delivered : later.Grows 0 { later with results := later.results ++ [(call.ticket, result)] } :=
    ⟨List.prefix_rfl, List.prefix_rfl, rfl, Nat.le_refl _⟩
  exact (released.trans delivered).trans (grows_wakeExchange _ call.ticket)

theorem grows_tellCall (distinct : peer.table.Distinct) (call : Rpc.Call)
    (outcome : Rpc.CallOutcome) : peer.Grows 0 (peer.tellCall call outcome) := by
  have heard := peer.grows_noteAll (sinkNotes call.sink outcome)
  exact heard.followedBy (grows_concludeCall _ (heard.distinct distinct) call outcome.result)

theorem grows_makeCall (distinct : peer.table.Distinct) (call : Rpc.Call) :
    peer.Grows 0 (peer.makeCall call) := by
  have opened := (peer.grows_note (.called call)).trans
    (grows_connection (peer.note (.called call)) (Connection.closed_openStream _))
  unfold makeCall
  dsimp only
  split
  · exact opened.trans (grows_concludeCall _ (opened.distinct distinct) call _)
  · have counted : { peer.note (.called call) with
        connection := (peer.note (.called call)).connection.openStream.2 }.Grows 0
        ({ { peer.note (.called call) with
          connection := (peer.note (.called call)).connection.openStream.2 } with
          starts := peer.starts + 1 }.note (.started peer.starts call)) :=
      ⟨List.prefix_rfl, List.prefix_append _ _, rfl, Nat.le_refl _⟩
    have started := opened.trans counted
    split
    · exact started.trans (grows_tellCall _ (started.distinct distinct) call _)
    · exact started.trans (grows_tellCall _ (started.distinct distinct) call _)
    · exact ⟨started.line, started.account, started.served, started.work⟩

/-! ## Identity -/

theorem grows_identity (identity : IdentitySlot) :
    peer.Grows 0 { peer with identity := identity } :=
  ⟨List.prefix_rfl, List.prefix_rfl, rfl, Nat.le_refl _⟩

theorem grows_concludeIdentify (inquirer : Inquirer) (outcome : Identification) :
    peer.Grows 0 (peer.concludeIdentify inquirer outcome) := by
  have noted := peer.grows_note (.identified inquirer outcome)
  unfold concludeIdentify
  split
  · exact (noted.trans (grows_identity _ _)).trans (grows_emit _ _)
  · exact noted.trans (grows_emit _ _)
  · exact noted
  · exact noted

theorem grows_identify (inquirer : Inquirer) : peer.Grows 0 (peer.identify inquirer) := by
  have asked := (peer.grows_connection peer.connection.closed_identify).trans
    (grows_note _ (.identifyAsked inquirer))
  unfold identify
  dsimp only
  split
  · exact ⟨asked.line, asked.account, asked.served, asked.work⟩
  · exact asked.trans (grows_concludeIdentify _ _ _)

/-! ## Requests to disconnect, and the close of the connection -/

theorem grows_disconnectImmediately (record : DisconnectRecord) :
    peer.Grows 1 (peer.disconnectImmediately record) := by
  have recorded : peer.Grows 0 { peer with link := (peer.link.recordDisconnect record).2 } :=
    ⟨List.prefix_rfl, List.prefix_rfl, rfl, Nat.le_refl _⟩
  exact (recorded.trans (grows_emit _ _)).followedBy (grows_enlist _ .close)

theorem grows_disconnectCleanly (reason : DisconnectReason) :
    peer.Grows 4 (peer.disconnectCleanly reason).2 := by
  have recorded : peer.Grows 0 { peer with
      link := (peer.link.recordDisconnect ⟨some reason, true⟩).2
      farewells := peer.farewells + 1 } :=
    ⟨List.prefix_rfl, List.prefix_rfl, rfl, Nat.le_refl _⟩
  exact (recorded.trans (grows_emit _ _)).followedBy (grows_enlist _ (.farewell _ _))

/-- A connection closes once, and wakes the watcher only if that waits for it. -/
theorem grows_closeConnection (watchful : peer.watcher = .waiting → peer.connection.closed = false) :
    peer.Grows 0 peer.closeConnection := by
  cases watcher : peer.watcher with
  | waiting =>
      have isOpen := watchful watcher
      have woken : peer.closeConnection = { peer with
          connection := { peer.connection with closed := true }
          watcher := .inLine
          line := peer.line ++ [.watch] } := by
        simp [closeConnection, watcher, enlist]
      rw [woken]
      refine ⟨List.prefix_append _ _, List.prefix_rfl, rfl, ?_⟩
      simp only [work, watcher, isOpen, total_append, total_cons, total_nil, Turn.weight,
        reduceCtorEq, ↓reduceIte]
      omega
  | inLine | ended =>
      have closed : peer.closeConnection =
          { peer with connection := { peer.connection with closed := true } } := by
        simp [closeConnection, watcher]
      rw [closed]
      refine ⟨List.prefix_rfl, List.prefix_rfl, rfl, ?_⟩
      simp only [work, watcher, reduceCtorEq, ↓reduceIte]
      omega

theorem grows_close (watchful : peer.watcher = .waiting → peer.connection.closed = false) :
    peer.Grows 0 peer.close := by
  have asked := (peer.grows_connection peer.connection.closed_nextClose).trans
    (grows_note _ .closeAsked)
  unfold close
  dsimp only
  split
  · refine asked.trans (grows_closeConnection _ ?_)
    intro waits
    exact (Connection.closed_nextClose _).trans (watchful waits)
  · exact asked
  · exact asked.trans (grows_emit _ _)

end Costs

/-! ## Observers -/

/-- What the waiting observers count. -/
def expected (observers : Registry Observer) : Nat :=
  total (fun entry => entry.2.weight) observers.waiting

theorem expected_subscribe? {observers later : Registry Observer} {observer : Observer}
    {id : SubscriptionId} (subscribed : observers.subscribe? observer = some (id, later)) :
    expected later ≤ expected observers + observer.weight := by
  obtain ⟨nextId, -, entry⟩ := Option.map_eq_some_iff.mp subscribed
  unfold expected Registry.waiting
  split at entry
  · obtain ⟨-, rfl⟩ := Prod.mk.inj entry
    simp
  · obtain ⟨-, rfl⟩ := Prod.mk.inj entry
    exact Nat.zero_le _

theorem expected_unsubscribe (observers : Registry Observer) (id : SubscriptionId) :
    expected (observers.unsubscribe id).2 ≤ expected observers := by
  unfold Registry.unsubscribe
  split
  · rename_i waiting phase
    simp only [expected, Registry.waiting, phase]
    exact total_filter_le _ _ _
  · exact Nat.le_refl _

theorem grows_callEach {α : Type} {call : α → Peer → Option String × Peer} (cost : α → Nat)
    (each : ∀ item peer, Grows (cost item) peer (call item peer).2) (items : List α) (peer : Peer) :
    peer.Grows (total cost items) (Registry.callEach call items peer).2 := by
  induction items generalizing peer with
  | nil => exact Grows.refl peer
  | cons first rest inductionHypothesis =>
      have called := each first peer
      unfold Registry.callEach
      rw [total_cons]
      split
      · rename_i later equal
        rw [equal] at called
        exact called.trans (inductionHypothesis later)
      · rename_i failure later equal
        rw [equal] at called
        exact called.mono (Nat.le_add_right _ _)

section Observers

variable (peer : Peer)

theorem grows_observers {observers : Registry Observer} {cost : Nat}
    (bounded : expected observers ≤ expected peer.observers + cost) :
    peer.Grows cost { peer with observers := observers } where
  line := List.prefix_rfl
  account := List.prefix_rfl
  served := rfl
  work := by
    simp only [work, expected] at bounded ⊢
    omega

theorem grows_react (name : String) (reaction : Reaction) (peer : Peer) :
    peer.Grows reaction.weight (react name reaction peer).2 := by
  unfold react
  cases reaction with
  | panic => exact Grows.refl peer
  | subscribe inner =>
      cases subscribed : peer.observers.subscribe? { name := inner } with
      | none =>
          simp only [subscribed]
          exact Grows.refl peer
      | some entry =>
          obtain ⟨id, observers⟩ := entry
          have joined := peer.grows_observers (expected_subscribe? subscribed)
          simp only [subscribed]
          split
          · exact (joined.trans (grows_note _ _)).trans (grows_note _ _)
          · exact joined.trans (grows_note _ _)
  | unsubscribe id =>
      exact (peer.grows_observers (expected_unsubscribe _ id)).trans (grows_note _ _)
  | disconnect reason => exact (peer.grows_disconnectImmediately _).trans (grows_note _ _)
  | disconnectCleanly reason => exact (peer.grows_disconnectCleanly _).trans (grows_note _ _)
  | look => exact peer.grows_note _

theorem grows_callObserver (record : DisconnectRecord) (subscribed : SubscriptionId × Observer)
    (peer : Peer) : peer.Grows subscribed.2.weight (callObserver record subscribed peer).2 :=
  (peer.grows_note _).followedBy
    (grows_callEach Reaction.weight (grows_react subscribed.2.name) subscribed.2.reactions _)

/-- What the observers counted while they waited pays for what they do. -/
theorem grows_announce (record : DisconnectRecord) : peer.Grows 0 (peer.announce record) := by
  unfold announce
  split
  · exact Grows.refl peer
  · rename_i waiting observers announces
    have told := grows_callEach (fun entry => entry.2.weight) (grows_callObserver record) waiting
      { peer with observers := observers }
    have spent : expected observers + total (fun entry => entry.2.weight) waiting =
        expected peer.observers := by
      unfold Registry.announce? at announces
      unfold expected Registry.waiting
      split at announces <;> cases announces
      simp
    refine ⟨told.line, told.account, told.served, Nat.le_trans told.work ?_⟩
    simp only [work, expected] at spent ⊢
    omega

theorem grows_watch : peer.Grows 1 peer.watch := by
  unfold watch
  split
  · have ended : peer.Grows 0 { peer with
        link := peer.link.markClosed.2
        watcher := .ended } := by
      refine ⟨List.prefix_rfl, List.prefix_rfl, rfl, ?_⟩
      simp only [work, reduceCtorEq, ↓reduceIte]
      omega
    exact ((ended.trans (grows_emit _ _)).trans (grows_announce _ _)).mono (Nat.zero_le 1)
  · refine ⟨List.prefix_rfl, List.prefix_rfl, rfl, ?_⟩
    simp only [work, ↓reduceIte]
    omega

end Observers

/-! ## Goodbyes -/

section Goodbyes

variable (peer : Peer)

theorem grows_reportFault (reason : DisconnectReason) (outcome : GoodbyeOutcome) :
    peer.Grows 0 (peer.reportFault reason outcome) := by
  unfold reportFault
  split
  · exact peer.grows_emit _
  · exact Grows.refl peer
  · exact Grows.refl peer

theorem grows_reportPanic (outcome : GoodbyeOutcome) :
    peer.Grows 0 (peer.reportPanic outcome) := by
  unfold reportPanic
  split
  · exact peer.grows_emit _
  · exact Grows.refl peer
  · exact Grows.refl peer

theorem grows_concludeFarewell (farewell : Farewell) (outcome : GoodbyeOutcome) :
    peer.Grows 1 (peer.concludeFarewell farewell outcome) := by
  have left := (peer.grows_reportFault farewell.reason outcome).followedBy
    (grows_disconnectImmediately _ ⟨some farewell.reason, true⟩)
  have reported := left.trans (grows_reportPanic _ outcome)
  exact ⟨reported.line, reported.account, reported.served, reported.work⟩

theorem grows_concludeExchange (caller : GoodbyeCaller) (reason : DisconnectReason)
    (outcome : GoodbyeOutcome) : peer.Grows 1 (peer.concludeExchange caller reason outcome) := by
  cases caller with
  | farewell number => exact peer.grows_concludeFarewell ⟨number, reason⟩ outcome
  | outside => exact (peer.grows_note _).mono (Nat.zero_le 1)

theorem grows_resumeExchange (exchange : GoodbyeExchange) :
    peer.Grows 1 (peer.resumeExchange exchange) := by
  unfold resumeExchange
  dsimp only
  split
  · exact (peer.grows_note _).followedBy (grows_concludeExchange _ _ _ _)
  · exact peer.grows_concludeExchange _ _ _
  · exact peer.grows_concludeExchange _ _ _

theorem grows_requestGoodbye (distinct : peer.table.Distinct) (clock : Clock)
    (caller : GoodbyeCaller) (reason : DisconnectReason) (timeoutMs : Nat) :
    peer.Grows 3 (peer.requestGoodbye clock caller reason timeoutMs) := by
  have sent := peer.grows_send distinct .goodbye reason.goodbyeBody .discard
  unfold requestGoodbye
  split
  · rename_i refused equal
    rw [equal] at sent
    exact (sent.trans (grows_concludeExchange _ _ _ _)).mono (by omega)
  · rename_i ticket later equal
    rw [equal] at sent
    dsimp only
    split
    · exact (sent.trans (grows_concludeExchange _ _ _ _)).mono (by omega)
    · refine ⟨sent.line, sent.account, sent.served, ?_⟩
      have sentWork := sent.work
      simp only [work, List.length_append, List.length_singleton] at sentWork ⊢
      omega

theorem grows_beginGoodbye (distinct : peer.table.Distinct) (clock : Clock)
    (reason : DisconnectReason) (timeoutMs : Nat) :
    peer.Grows 3 (peer.beginGoodbye clock reason timeoutMs) := by
  unfold beginGoodbye
  split
  · exact peer.grows_requestGoodbye distinct clock .outside reason timeoutMs
  · exact (peer.grows_note _).mono (by omega)

theorem grows_beginFarewell (distinct : peer.table.Distinct) (clock : Clock)
    (farewell : Farewell) (first : Bool) :
    peer.Grows 3 (peer.beginFarewell clock farewell first) := by
  unfold beginFarewell
  split
  · split
    · exact (peer.grows_concludeFarewell farewell .said).mono (by omega)
    · rename_i handler installed
      have asked := peer.grows_note (.goodbyeAsked handler farewell.reason)
      dsimp only
      split
      · exact (asked.followedBy (grows_concludeFarewell _ farewell _)).mono (by omega)
      · exact ⟨asked.line, asked.account, asked.served, Nat.le_trans asked.work (by omega)⟩
      · exact asked.followedBy (grows_requestGoodbye _ (asked.distinct distinct) _ _ _ _)
  · exact (peer.grows_concludeFarewell farewell .said).mono (by omega)

end Goodbyes

/-! ## Turns -/

theorem Turn.weight_pos (turn : Turn) : 0 < turn.weight := by
  cases turn <;> exact Nat.succ_pos _

/-- A turn costs less than it counts in the line. -/
theorem grows_take (peer : Peer) (distinct : peer.table.Distinct)
    (watchful : peer.watcher = .waiting → peer.connection.closed = false) (clock : Clock)
    (turn : Turn) : peer.Grows (turn.weight - 1) (peer.take clock turn) := by
  cases turn with
  | watch => exact peer.grows_watch
  | close => exact peer.grows_close watchful
  | farewell farewell first => exact peer.grows_beginFarewell distinct clock farewell first
  | goodbyeTold farewell outcome => exact peer.grows_concludeFarewell farewell outcome
  | goodbye reason timeoutMs => exact peer.grows_beginGoodbye distinct clock reason timeoutMs
  | goodbyeDue exchange => exact peer.grows_resumeExchange exchange
  | identify inquirer => exact peer.grows_identify inquirer
  | identified held => exact peer.grows_concludeIdentify _ _
  | call call => exact peer.grows_makeCall distinct call
  | callTold call outcome => exact peer.grows_tellCall distinct call outcome

theorem work_advance {peer later : Peer} (distinct : peer.table.Distinct)
    (watchful : peer.watcher = .waiting → peer.connection.closed = false) {clock : Clock}
    (advances : peer.advance? clock = some later) : later.work < peer.work := by
  unfold advance? at advances
  split at advances
  · cases advances
  · rename_i turn rest line
    obtain rfl := Option.some.inj advances
    have taken := (grows_take { peer with line := rest } distinct watchful clock turn).work
    have popped := peer.work_line rest
    rw [line, total_cons] at popped
    have counts := turn.weight_pos
    omega

end PeerLink.Peer
