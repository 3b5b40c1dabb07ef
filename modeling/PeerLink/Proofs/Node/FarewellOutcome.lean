import Mathlib.Algebra.Group.Nat.Defs
import PeerLink.Proofs.Node.Rest
import PeerLink.Proofs.Peer.Answers
import PeerLink.Proofs.Peer.Closes
import PeerLink.Proofs.Peer.Outcome

/-!
Contract: how a clean disconnect ends whose handler is the goodbye request.

Owns: what the body of a goodbye says, the goodbye requests that a peer makes of its own accord, and
that the one it makes is reported once by the time it has.

Does not own: the stages of a goodbye, and the balance of the closes.
-/

namespace PeerLink

/-! ## The body of a goodbye -/

namespace DisconnectReason

/-- The number that bytes stand for, the lowest first. -/
def ofLittleEndian : List UInt8 → Nat
  | [] => 0
  | byte :: rest => byte.toNat + 256 * ofLittleEndian rest

theorem length_littleEndian (count value : Nat) : (littleEndian count value).length = count := by
  induction count generalizing value with
  | zero => rfl
  | succ count inductionHypothesis =>
      rw [littleEndian, List.length_cons, inductionHypothesis]

theorem ofLittleEndian_littleEndian (count value : Nat) :
    ofLittleEndian (littleEndian count value) = value % 256 ^ count := by
  induction count generalizing value with
  | zero => simp [littleEndian, ofLittleEndian, Nat.mod_one]
  | succ count inductionHypothesis =>
      have split : value % 256 ^ (count + 1) = value % 256 + 256 * (value / 256 % 256 ^ count) := by
        rw [Nat.pow_succ', Nat.mod_mul]
      rw [littleEndian, ofLittleEndian, inductionHypothesis, UInt8.toNat_ofNat', split]

/-- The body of a goodbye is the code of its reason in eight bytes, the lowest first. -/
theorem goodbyeBody_spec (reason : DisconnectReason) :
    reason.goodbyeBody.length = 8 ∧ ofLittleEndian reason.goodbyeBody = reason.goodbyeCode := by
  refine ⟨length_littleEndian 8 _, (ofLittleEndian_littleEndian 8 _).trans ?_⟩
  cases reason <;> rfl

end DisconnectReason

namespace Peer

/-! ## Goodbye requests that nobody outside asks for -/

/-- The requests over the method of goodbyes that a history adds, apart from those that are sent on
behalf of somebody outside. -/
def ownGoodbyes (peer : Peer) : List Move → List Rpc.Call
  | [] => []
  | move :: rest =>
      (if peer.sendsOutside move then []
        else ((peer.move move).requestsTo .goodbye).drop (peer.requestsTo .goodbye).length) ++
        (peer.move move).ownGoodbyes rest

theorem ownGoodbyes_append (peer : Peer) (earlier later : List Move) :
    peer.ownGoodbyes (earlier ++ later) =
      peer.ownGoodbyes earlier ++ (peer.play earlier).ownGoodbyes later := by
  induction earlier generalizing peer with
  | nil => rfl
  | cons move rest inductionHypothesis =>
      rw [List.cons_append, ownGoodbyes, ownGoodbyes, inductionHypothesis, play_cons,
        List.append_assoc]

section Requests

variable {peer : Peer} {returned : List Return} {slots : Nat}

theorem requestsTo_of_traffic {later : Peer} (same : later.traffic [] = peer.traffic [])
    (method : Rpc.Method) : later.requestsTo method = peer.requestsTo method := by
  rw [← requestsTo_traffic later [], same, requestsTo_traffic]

/-- A move by which no request is accepted leaves the requests as they are. -/
theorem requestsTo_of_accepted (lawful : (peer.traffic returned).Lawful slots) {move : Move}
    (same : (peer.move move).parting.accepted = peer.parting.accepted) :
    (peer.move move).requestsTo .goodbye = peer.requestsTo .goodbye := by
  rcases (peer.traffic_move move).requestsTo_cases lawful.sound .goodbye with
    ⟨kept, -⟩ | ⟨delegate, body, sink, -, -, more⟩
  · rw [requestsTo_traffic, requestsTo_traffic] at kept
    exact kept
  · have accepted : peer.parting.accepted = peer.parting.accepted + 1 := same.symm.trans more
    exact absurd accepted (Nat.ne_of_lt (Nat.lt_succ_self _))

/-- As long as no handler is asked, a peer makes no goodbye request of its own accord. -/
theorem ownGoodbyes_of_unasked (lawful : (peer.traffic returned).Lawful slots) (moves : List Move)
    (unasked : (peer.play moves).parting.asked = peer.parting.asked) :
    peer.ownGoodbyes moves = [] := by
  induction moves generalizing peer returned with
  | nil => rfl
  | cons move rest inductionHypothesis =>
      have here := peer.parted_move move
      have grows : (peer.move move).parting.asked <+: (peer.play (move :: rest)).parting.asked :=
        parted_preserves (fun step asked => List.IsPrefix.trans asked step.asks) List.prefix_rfl rest
      have unaskedHere : (peer.move move).parting.asked = peer.parting.asked :=
        (List.IsPrefix.eq_of_length_le here.asks
          (Nat.le_trans grows.length_le (Nat.le_of_eq (congrArg List.length unasked)))).symm
      have later := inductionHypothesis ((peer.traffic_move move).lawful lawful)
        (unasked.trans unaskedHere.symm)
      rw [ownGoodbyes, later, List.append_nil]
      split
      · rfl
      · rename_i inside
        rw [requestsTo_of_accepted lawful (here.accepted_eq unaskedHere inside), List.drop_length]

/-- A goodbye request is one request with the body that belongs to its reason, if goodbyes are served. -/
theorem requestsTo_requestGoodbye (lawful : (peer.traffic returned).Lawful slots) (clock : Clock)
    (caller : GoodbyeCaller) (reason : DisconnectReason) (timeoutMs : Nat) :
    (peer.requestGoodbye clock caller reason timeoutMs).requestsTo .goodbye =
      peer.requestsTo .goodbye ++
        (peer.table.delegateOf? .goodbye).toList.map fun delegate =>
          ⟨delegate, (peer.requestsTo .goodbye).length, reason.goodbyeBody, .discard⟩ := by
  have concludes (later : Peer) (outcome : GoodbyeOutcome) :
      (later.concludeExchange caller reason outcome).requestsTo .goodbye =
        later.requestsTo .goodbye :=
    requestsTo_of_traffic ((later.changes_concludeExchange caller reason outcome).traffic_eq rfl) _
  cases serves : peer.table.delegateOf? .goodbye with
  | none =>
      have refuses : peer.send .goodbye reason.goodbyeBody .discard = (none, peer) := by
        rw [send, Rpc.Table.accept?_eq_none_iff.mpr serves]
      simp only [requestGoodbye, refuses, concludes, Option.toList_none, List.map_nil,
        List.append_nil]
  | some delegate =>
      obtain ⟨ticket, appended⟩ := requestsTo_send lawful serves reason.goodbyeBody .discard
      unfold requestGoodbye
      split
      · rename_i refused sends
        rw [sends] at ticket
        cases ticket
      · rename_i other sent sends
        rw [sends] at appended
        dsimp only
        split
        · rw [concludes]
          exact appended
        · exact appended

/-- The turn in which the handler makes its request adds it to the requests of the peer. -/
theorem ownGoodbyes_turn (lawful : (peer.traffic returned).Lawful slots) {farewell : Farewell}
    {rest : List Turn} (line : peer.line = .farewell farewell true :: rest) {timeoutMs : Nat}
    (installed : peer.handler = some (.request timeoutMs)) (clock : Clock) :
    (peer.ownGoodbyes [.turn clock]).map Rpc.Call.body =
      (peer.table.delegateOf? .goodbye).toList.map fun _ => farewell.reason.goodbyeBody := by
  have inside : peer.sendsOutside (.turn clock) = false := by
    simp [sendsOutside, line]
  have popped (returned : List Return) : ({ peer with line := rest }.note
      (.goodbyeAsked (.request timeoutMs) farewell.reason)).traffic returned =
      peer.traffic returned := by
    simp [traffic, Peer.note, Note.made?, line, List.filterMap_cons, Turn.due?, Turn.told?]
  have requested := requestsTo_requestGoodbye (popped returned ▸ lawful) clock
    (.farewell farewell.number) farewell.reason timeoutMs
  rw [← move_turn_of_request line installed clock, requestsTo_of_traffic (popped [])] at requested
  simp only [ownGoodbyes, inside, requested, Bool.false_eq_true, ↓reduceIte, List.drop_left,
    List.append_nil, List.map_map]
  rfl

end Requests

/-! ## The clean disconnect that wrote the record -/

/-- The invitation that waits in the line is the only one, and no handler was asked before. -/
theorem alone_of_invited {peer : Peer} (once : peer.departure.SaysOnce) {farewell : Farewell}
    {rest : List Turn} (line : peer.line = .farewell farewell true :: rest) :
    peer.parting.asked = [] ∧ rest.filterMap Turn.invited? = [] ∧
      peer.link.record = some ⟨some farewell.reason, true⟩ := by
  have turns : peer.departure.turns = .farewell farewell true :: rest.filter Turn.isDeparture := by
    rw [departure, line]
    rfl
  have invitations : peer.departure.invitations =
      peer.account.filterMap Note.invited? ++
        farewell.reason :: (rest.filter Turn.isDeparture).filterMap Turn.inviting? := by
    rw [Departure.invitations, turns, List.filterMap_cons]
    exact congrArg (· ++ _)
      (filterMap_kind Note.isDeparture (fun _ _ => Note.isDeparture_of_invited?) _)
  have once' := once.once
  rw [invitations, List.length_append, List.length_cons] at once'
  have nobody : peer.account.filterMap Note.invited? = [] := List.length_eq_zero_iff.mp (by omega)
  have noOther : (rest.filter Turn.isDeparture).filterMap Turn.inviting? = [] :=
    List.length_eq_zero_iff.mp (by omega)
  refine ⟨?_, ?_, once.recorded _ (by simp [invitations])⟩
  · refine List.filterMap_eq_nil_iff.mpr fun note member => ?_
    exact List.filterMap_eq_nil_iff.mp nobody note (List.mem_filter.mp member).1
  · refine List.filterMap_eq_nil_iff.mpr fun turn member => ?_
    have quiet (concerns : turn.isDeparture = true) : turn.inviting? = none :=
      List.filterMap_eq_nil_iff.mp noOther turn (List.mem_filter.mpr ⟨member, concerns⟩)
    cases turn with
    | farewell other first =>
        cases first with
        | true => cases quiet rfl
        | false => rfl
    | _ => rfl

/-- With no errand left and nothing under way, the connection was asked to close once for every
immediate disconnect and once for every clean one, and every clean one is over. -/
theorem Books.closes_of_over {books : Books} (balanced : books.Balanced) (idle : books.errands = [])
    (vacant : books.underWay = []) :
    books.closes = books.outside.now + books.entries.count .byObserver + books.farewells ∧
      books.ended.Perm (List.range books.farewells) := by
  have places := balanced.placed.places
  have closes := balanced.counted.closes
  have now := balanced.counted.now
  rw [Books.waiting, idle, vacant] at places
  rw [idle, List.count_nil, Nat.add_zero] at closes
  have ended : books.ended.length = books.farewells := by
    rw [← List.length_range (n := books.farewells)]
    exact places.length_eq
  exact ⟨by omega, places⟩

/-- A history in which a clean request, direct or by a verdict, writes the record for this reason, and
has its turn at this reading of the clock while the handler is a goodbye request with so much time. -/
def RequestsGoodbye (start : Peer) (moves : List Move) (reason : DisconnectReason) (clock : Clock)
    (timeoutMs : Nat) : Prop :=
  ∃ earlier call between later,
    moves = earlier ++ call :: between ++ .turn clock :: later ∧
      (start.play earlier).link.record = none ∧
      (start.play earlier).AsksCleanly reason call ∧
      (start.play (earlier ++ call :: between)).BeginsFarewell (start.play earlier).farewells ∧
      (start.play (earlier ++ call :: between)).handler = some (.request timeoutMs)

/-- One goodbye was said, as its line in the log tells, and none failed; or one failed, and none was
said. Goodbyes of callers outside are left out of account. -/
def ReportsOnce (peer : Peer) (reason : DisconnectReason) : Prop :=
  Tally peer.account 1 [] ∧ .logged (peer.goodbyeLine reason) ∈ peer.account ∨
    Tally peer.account 0 [reason]

section Histories

variable {start : Peer} {closed : Bool}

/-- What the turn of the clean disconnect finds and what it leaves. -/
theorem begun_of_requests (isFresh : start.departure = .fresh closed)
    (unbegun : start.parting.Unbegun) {earlier between : List Move} {call : Move}
    {reason : DisconnectReason} (unwritten : (start.play earlier).link.record = none)
    (asks : (start.play earlier).AsksCleanly reason call)
    (begins : (start.play (earlier ++ call :: between)).BeginsFarewell
      (start.play earlier).farewells) {timeoutMs : Nat}
    (installed : (start.play (earlier ++ call :: between)).handler = some (.request timeoutMs))
    (clock : Clock) :
    ∃ farewell rest, farewell.reason = reason ∧
      (start.play (earlier ++ call :: between)).line = .farewell farewell true :: rest ∧
      (start.play (earlier ++ call :: between)).parting.asked = [] ∧
      (start.play (earlier ++ call :: between)).link.record = some ⟨some reason, true⟩ ∧
      ((start.play (earlier ++ call :: between)).move (.turn clock)).parting.Begun reason
        (clock.now + timeoutMs) := by
  have numbered := numbered_of_asks isFresh between unwritten asks
  obtain ⟨farewell, first, next, number⟩ := begins
  obtain ⟨rest, line⟩ := List.head?_eq_some_iff.mp next
  have waits : .farewell farewell first ∈
      (start.play (earlier ++ call :: between)).departure.turns := by
    refine List.mem_filter.mpr ⟨?_, rfl⟩
    rw [line]
    exact List.mem_cons_self
  obtain ⟨rfl, rfl⟩ := numbered.only farewell first waits number
  have once : (start.play (earlier ++ call :: between)).departure.SaysOnce := by
    refine play_preserves Departure.Step.saysOnce ?_ ?_ _
    · exact isFresh ▸ Departure.sound_fresh closed
    · exact isFresh ▸ Departure.saysOnce_fresh closed
  obtain ⟨nobody, last, recorded⟩ := alone_of_invited once line
  have readied := parted_preserves Parting.Step.unbegun unbegun (earlier ++ call :: between)
  refine ⟨farewell, rest, rfl, line, nobody, recorded, ?_⟩
  exact begun_turn readied nobody line last (recorded ▸ Option.some_ne_none _) installed clock

/-- Once a clean disconnect has begun, the peer makes no further request of its own accord. -/
theorem asked_of_begun {peer : Peer} {reason : DisconnectReason} {deadline : Nat}
    (begun : peer.parting.Begun reason deadline) (later : List Move) :
    (peer.play later).parting.asked = peer.parting.asked := by
  have each {allows : Leave} {before after : Parting} (step : Parting.Step allows before after)
      (kept : before.Begun reason deadline ∧ before.asked = peer.parting.asked) :
      after.Begun reason deadline ∧ after.asked = peer.parting.asked := by
    have unasked := step.asked_cases.resolve_right fun asks => asks.1 kept.1.uninvited
    exact ⟨step.begun kept.1, unasked.trans kept.2⟩
  exact (parted_preserves each ⟨begun, rfl⟩ later).2

/-- A peer makes one goodbye request of its own accord, in the turn of the clean disconnect. -/
theorem ownGoodbyes_of_requests {returned : List Return} {slots : Nat}
    (lawful : (start.traffic returned).Lawful slots) (nobody : start.parting.asked = [])
    {asking : List Move} {farewell : Farewell} {rest : List Turn}
    (line : (start.play asking).line = .farewell farewell true :: rest)
    (unasked : (start.play asking).parting.asked = []) {timeoutMs deadline : Nat}
    (installed : (start.play asking).handler = some (.request timeoutMs)) {clock : Clock}
    (begun : ((start.play asking).move (.turn clock)).parting.Begun farewell.reason deadline)
    (later : List Move) :
    (start.ownGoodbyes (asking ++ .turn clock :: later)).map Rpc.Call.body =
      if start.table.supports .goodbye then [farewell.reason.goodbyeBody] else [] := by
  have traffic : Traffic.Steps (start.traffic returned)
      ((start.play asking).traffic (returned ++ start.returns asking)) := start.traffic_play asking
  have lawfulThen := traffic.lawful lawful
  have lawfulLater := ((start.play asking).traffic_move (.turn clock)).lawful lawfulThen
  have before := ownGoodbyes_of_unasked lawful asking (unasked.trans nobody.symm)
  have turn := ownGoodbyes_turn lawfulThen line installed clock
  have after := ownGoodbyes_of_unasked lawfulLater later (asked_of_begun begun later)
  have served : (start.play asking).table.delegateOf? .goodbye = start.table.delegateOf? .goodbye :=
    traffic.delegateOf?_eq .goodbye
  rw [show asking ++ .turn clock :: later = asking ++ ([.turn clock] ++ later) from rfl,
    ownGoodbyes_append, ownGoodbyes_append, before, List.nil_append, play_cons, play_nil, after,
    List.append_nil, turn, served, Rpc.Table.supports, Rpc.Table.delegateOf?]
  cases start.table.find? .goodbye <;> rfl

/-- At rest a request that has had its time is over: it was reported, and no goodbye is under way. -/
theorem reportsOnce_of_rest {peer : Peer} {reason : DisconnectReason} {deadline : Nat}
    (begun : peer.parting.Begun reason deadline) (atRest : peer.line = [])
    (early : ∀ exchange ∈ peer.exchanges, exchange.deadline ≠ deadline) :
    peer.ReportsOnce reason ∧ peer.pendingFarewells = [] := by
  have due : peer.parting.due = [] := by simp [parting, atRest]
  have vacant {said : Nat} {failures : List DisconnectReason}
      (stage : peer.parting.Stage none said failures) : peer.pendingFarewells = [] := by
    have pending := stage.pending
    rw [Parting.pending, due, List.nil_append] at pending
    rw [pendingFarewells, show peer.heldGoodbyes = [] from stage.held, List.map_nil, List.nil_append]
    refine List.filterMap_eq_nil_iff.mpr fun exchange waits => ?_
    have outside := List.filter_eq_nil_iff.mp pending exchange waits
    rw [show exchange.caller = .outside by simpa using outside]
    rfl
  cases begun.phase with
  | waits exchange sameReason sameDeadline stage =>
      have pending := stage.pending
      rw [Parting.pending, due, List.nil_append] at pending
      have outstanding : exchange ∈ peer.parting.waiting.filter (·.caller != .outside) := by
        rw [pending]
        exact List.mem_cons_self
      have waits : exchange ∈ peer.exchanges := (List.mem_filter.mp outstanding).1
      exact absurd sameDeadline (early exchange waits)
  | said stage logged =>
      exact ⟨.inl ⟨tally_parting stage.tally, (List.mem_filter.mp logged).1⟩, vacant stage⟩
  | failed stage => exact ⟨.inr (tally_parting stage.tally), vacant stage⟩

end Histories

/-- A clean disconnect that wrote the record, and whose handler is a goodbye request, keeps the record
and reports no violation. Of its own accord the peer makes one goodbye request, if goodbyes are served,
and its body is the code of the recorded reason in eight bytes, the lowest first. When a node that the
peer belongs to settles after the time of the request has run out, one outcome was reported, whatever
the delegate did and whoever else said goodbye; the connection was asked to close once for every
disconnect; and no later history adds to either. -/
theorem goodbye_reported_once (settings : Settings) (address : PeerAddress) (publicKey : String)
    (dialled : Bool) (connection : Connection) (delegates : List Rpc.Delegate) (moves : List Move)
    (reason : DisconnectReason) (clock : Clock) (timeoutMs : Nat)
    (requests : (create settings address publicKey dialled connection delegates).RequestsGoodbye moves
      reason clock timeoutMs) :
    let start := create settings address publicKey dialled connection delegates
    let peer := start.play moves
    peer.link.record = some ⟨some reason, true⟩ ∧
      peer.account.countP Note.isViolation = 0 ∧
      (start.ownGoodbyes moves).map Rpc.Call.body =
        (if start.table.supports .goodbye then [reason.goodbyeBody] else []) ∧
      reason.goodbyeBody.length = 8 ∧
      DisconnectReason.ofLittleEndian reason.goodbyeBody = reason.goodbyeCode ∧
      ∀ (node : Node) (place : Nat), node.Orderly → node.settle.peers[place]? = some peer →
        clock.now + timeoutMs ≤ node.settle.clock.now →
        peer.ReportsOnce reason ∧ 0 < peer.farewells ∧
          peer.farewellsEnded.Perm (List.range peer.farewells) ∧
          peer.entries.count .close =
            (callsOf address moves).now + peer.entries.count .byObserver + peer.farewells := by
  intro start peer
  obtain ⟨earlier, call, between, later, rfl, unwritten, asks, begins, installed⟩ := requests
  have isFresh : start.departure = .fresh connection.closed :=
    departure_create settings address publicKey dialled connection delegates
  have unbegun : start.parting.Unbegun :=
    unbegun_create settings address publicKey dialled connection delegates
  obtain ⟨farewell, rest, rfl, line, nobody, recorded, begun⟩ :=
    begun_of_requests isFresh unbegun unwritten asks begins installed clock
  have history : peer =
      ((start.play (earlier ++ call :: between)).move (.turn clock)).play later := by
    simp only [peer, play_append, play_cons]
  have begunStill : peer.parting.Begun farewell.reason (clock.now + timeoutMs) := by
    rw [history]
    exact parted_preserves (fun step kept => step.begun kept) begun later
  refine ⟨?_, ?_, ?_, farewell.reason.goodbyeBody_spec.1, farewell.reason.goodbyeBody_spec.2, ?_⟩
  · have sound := sound_play (isFresh ▸ Departure.sound_fresh _) (earlier ++ call :: between)
    rw [show peer = (start.play (earlier ++ call :: between)).play (.turn clock :: later) from
      play_append _ _ _]
    exact (extends_play sound (.turn clock :: later)).record _ recorded
  · cases begunStill.phase with
    | waits exchange sameReason sameDeadline stage => exact (tally_parting stage.tally).violations
    | said stage logged => exact (tally_parting stage.tally).violations
    | failed stage => exact (tally_parting stage.tally).violations
  · have lawful := Traffic.lawful_fresh settings.maxConcurrentRequests delegates
    rw [← traffic_create settings address publicKey dialled connection delegates] at lawful
    refine ownGoodbyes_of_requests lawful ?_ line nobody installed begun later
    rw [parting_create]
    rfl
  · intro node place orderly found passed
    have settles : Node.Steps False node node.settle := Node.steps_settle orderly
    have atRest : peer.line = [] :=
      (settles.orderly orderly).line_nil (Node.turns_settle orderly) found
    obtain ⟨reported, vacant⟩ := reportsOnce_of_rest begunStill atRest fun exchange waits same => by
      have left : node.settle.clock.now < exchange.deadline :=
        Node.lt_deadline_of_rest (Node.rests_settle orderly) found waits
      exact absurd (same ▸ left) (Nat.not_lt_of_le passed)
    have balanced : (peer.books (callsOf address
        (earlier ++ call :: between ++ .turn clock :: later))).Balanced := by
      have booked := start.booked_play (earlier ++ call :: between ++ .turn clock :: later) {}
      rw [books_create] at booked
      exact booked.balanced (Books.balanced_fresh _ _)
    have errands : (peer.books (callsOf address
        (earlier ++ call :: between ++ .turn clock :: later))).errands = [] := by
      simp [books, atRest]
    have underWay : (peer.books (callsOf address
        (earlier ++ call :: between ++ .turn clock :: later))).underWay = [] := by
      rw [← vacant, Books.underWay, errands]
      simp [books, endings, pendingFarewells, List.filterMap_map]
    obtain ⟨closes, ended⟩ := Books.closes_of_over balanced errands underWay
    have numbered := numbered_of_asks isFresh (between ++ .turn clock :: later) unwritten asks
    rw [← List.cons_append, ← List.append_assoc] at numbered
    exact ⟨reported, Nat.zero_lt_of_lt numbered.taken, ended, closes⟩

/-- The delegate leaves the goodbye unanswered until its time has run out, and answers it then. -/
def lateAnswer : List Move :=
  [.installGoodbye, .turn {}, .disconnectCleanly .rateLimiting, .turn {}, .turn {},
    .wake ⟨.goodbye, 0⟩, .turn { now := 1000 }, .turn { now := 1000 }, .turn { now := 1000 },
    .tellCall 0 (.answered []), .turn { now := 1500 }]

theorem goodbye_reported_once_lateAnswer :
    let start := create {} ⟨"peer", "/address"⟩ "key" true {} [⟨.goodbye, .gated, "goodbyes"⟩]
    let peer := start.play lateAnswer
    start.RequestsGoodbye lateAnswer .rateLimiting {} 1000 ∧
      (start.ownGoodbyes lateAnswer).map Rpc.Call.body = [[130, 0, 0, 0, 0, 0, 0, 0]] ∧
      peer.result? ⟨.goodbye, 0⟩ = some .completed ∧
      peer.ReportsOnce .rateLimiting ∧ peer.entries.count .close = 1 := by
  intro start peer
  have requests : start.RequestsGoodbye lateAnswer .rateLimiting {} 1000 :=
    ⟨[.installGoodbye, .turn {}], .disconnectCleanly .rateLimiting, [], lateAnswer.drop 4, rfl,
      by decide +kernel, rfl, ⟨⟨0, .rateLimiting⟩, true, by decide +kernel, rfl⟩, by decide +kernel⟩
  have line : peer.line = [] := by decide +kernel
  have exchanges : peer.exchanges = [] := by decide +kernel
  obtain ⟨-, -, bodies, -, -, reported⟩ := goodbye_reported_once {} ⟨"peer", "/address"⟩ "key" true
    {} [⟨.goodbye, .gated, "goodbyes"⟩] lateAnswer .rateLimiting {} 1000 requests
  let empty : Node := { clock := { now := 1500 }, authority := .scripted [], banClock := 0 }
  have orderly : (empty.addPeer peer).Orderly :=
    (Node.orderly_of_empty rfl rfl).addPeer ((fit_create _ _ _ _ _ _).play lateAnswer)
  have rests : (empty.addPeer peer).advance? = none := by
    refine Node.advance?_eq_none_iff.mpr ⟨?_, ?_⟩
    · simp [Node.addPeer, line, empty]
    · simp [Node.due, Node.addPeer, exchanges, empty]
  obtain ⟨once, -⟩ := reported (empty.addPeer peer) 0 orderly
    (by rw [Node.settle_of_rest rests]; rfl) (by rw [Node.settle_of_rest rests]; decide)
  exact ⟨requests, bodies, by decide +kernel, once, by decide +kernel⟩

end Peer

end PeerLink
