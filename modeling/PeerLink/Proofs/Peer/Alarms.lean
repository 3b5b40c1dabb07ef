import PeerLink.Proofs.Peer.Closes
import PeerLink.Proofs.Peer.Outcome

/-!
Contract: what is reported of a goodbye that goes wrong.

Every goodbye that a handler was asked for is under way until it ends, and it ends once. A fault is
reported before the immediate disconnect that follows, a panic after it, and nothing else reports
either. The clean disconnect is over in the same turn, however its goodbye ended.

Owns: the alarms of a peer, the balance of the goodbyes asked for, and their reports.

Does not own: who is asked, and the balance of the closes.
-/

namespace PeerLink.Peer

/-- The event that reports a goodbye which went wrong. -/
def Note.alarm? : Note → Option Occurrence
  | emitted (.cleanDisconnectFailed reason error) => some (.cleanDisconnectFailed reason error)
  | emitted (.invariantViolation context detail) => some (.invariantViolation context detail)
  | _ => none

/-- The event that is due for a goodbye which ends so. -/
def alarmOf? (reason : DisconnectReason) : GoodbyeOutcome → Option Occurrence
  | .said => none
  | .failed fault => some (.cleanDisconnectFailed reason fault.text)
  | .panicked message =>
      some (.invariantViolation cleanDisconnectContext (message.getD unknownPanic))

/-- The events that report a goodbye which went wrong, in order. -/
def alarms (peer : Peer) : List Occurrence := peer.account.filterMap Note.alarm?

theorem alarm?_endNotes (reason : DisconnectReason) (outcome : GoodbyeOutcome) :
    (endNotes reason outcome).filterMap Note.alarm? = (alarmOf? reason outcome).toList := by
  cases outcome <;> rfl

namespace Parting

def alarms (state : Parting) : List Occurrence := state.notes.filterMap Note.alarm?

/-- The reasons of the goodbyes under way, in no particular order. -/
def underWay (state : Parting) : List DisconnectReason :=
  state.held.map Farewell.reason ++ state.told.map (fun told => told.1.reason) ++
    state.pending.map GoodbyeExchange.reason

/-- No goodbye ended between two states: those asked for in between have come under way, and nothing
was reported. -/
structure Continues (before after : Parting) : Prop where
  ticketed : after.Ticketed
  quiet : after.alarms = before.alarms
  underWay : ∃ more, after.asked = before.asked ++ more ∧
    after.underWay.Perm (before.underWay ++ more)

theorem Continues.trans {first second third : Parting} (earlier : Continues first second)
    (later : Continues second third) : Continues first third := by
  obtain ⟨-, quiet, asked, isAsked, comes⟩ := earlier
  obtain ⟨ticketed, laterQuiet, more, isMore, comesLater⟩ := later
  refine ⟨ticketed, laterQuiet.trans quiet, asked ++ more, ?_, ?_⟩
  · rw [isMore, isAsked, List.append_assoc]
  · rw [← List.append_assoc]
    exact comesLater.trans (comes.append_right more)

section Steps

variable {allows : Leave} {before after : Parting}

/-- What is noted besides, and where nobody is asked, ends nothing. -/
theorem Continues.noted (ticketed : after.Ticketed) {notes : List Note}
    (underWay : after.underWay = before.underWay) (noted : after.notes = before.notes ++ notes)
    (quiet : notes.filterMap Note.alarm? = []) (unasked : notes.filterMap Note.invited? = []) :
    before.Continues after where
  ticketed := ticketed
  quiet := by rw [alarms, noted, List.filterMap_append, quiet, List.append_nil, alarms]
  underWay := by
    refine ⟨[], ?_, ?_⟩
    · rw [asked, noted, List.filterMap_append, unasked, asked]
    · rw [underWay, List.append_nil]

theorem alarm?_sentNotes (state : Parting) (reason : DisconnectReason) (outcome : GoodbyeOutcome) :
    (state.sentNotes reason outcome).filterMap Note.alarm? = [] := by
  cases outcome <;> rfl

/-- What a caller outside is told of its goodbye is no alarm. -/
theorem Continues.answered (ticketed : after.Ticketed) (reason : DisconnectReason)
    (outcome : GoodbyeOutcome) (underWay : after.underWay = before.underWay)
    (noted : after.notes = before.notes ++ before.sentNotes reason outcome ++
      [.goodbyeEnded outcome]) : before.Continues after := by
  rw [List.append_assoc] at noted
  refine .noted ticketed underWay noted ?_ ?_
  · rw [List.filterMap_append, alarm?_sentNotes]
    rfl
  · rw [List.filterMap_append, invited?_sentNotes]
    rfl

/-- A step that may not end a goodbye ends none. -/
theorem Step.continues (step : Step allows before after) (ticketed : before.Ticketed)
    (endsNone : ∀ reason outcome, ¬ allows.ends reason outcome) : before.Continues after := by
  have ticketedLater := step.ticketed ticketed
  cases step with
  | requestsNow | requestsCleanly | closes | follows | lapses =>
      exact .noted ticketedLater rfl rfl rfl rfl
  | drops adjustment warranted =>
      exact .noted ticketedLater rfl (List.append_assoc _ _ _) rfl rfl
  | answers farewell rest invited handler outcome sent warranted =>
      exact absurd warranted (endsNone _ _)
  | concludes farewell outcome rest told warranted => exact absurd warranted (endsNone _ _)
  | ends exchange rest due number caller outcome returns warranted =>
      exact absurd warranted (endsNone _ _)
  | holds farewell rest invited handler =>
      refine ⟨ticketedLater, ?_, [farewell.reason], ?_, ?_⟩
      · simp [alarms, ask, Note.alarm?]
      · simp [asked, ask, Note.invited?]
      · rw [List.perm_iff_count]
        intro reason
        simp only [underWay, pending, ask, List.map_append, List.map_cons, List.map_nil,
          List.count_append]
        omega
  | sends farewell rest invited handler deadline since =>
      refine ⟨ticketedLater, ?_, [farewell.reason], ?_, ?_⟩
      · simp [alarms, ask, await, Note.alarm?]
      · simp [asked, ask, await, Note.invited?]
      · simp [underWay, pending, ask, await]
  | accepts => exact .noted ticketedLater rfl (List.append_nil _).symm rfl rfl
  | sendsOutside =>
      refine .noted ticketedLater ?_ (List.append_nil _).symm rfl rfl
      simp [underWay, pending, await]
  | failsOutside reason fault => exact .answered ticketedLater reason _ rfl rfl
  | tells farewell rest held outcome =>
      refine ⟨ticketedLater, rfl, [], (List.append_nil _).symm, ?_⟩
      rw [List.perm_iff_count]
      intro reason
      simp only [underWay, pending, held, List.map_append, List.map_cons, List.map_nil,
        List.count_append, List.count_cons, List.count_nil]
      omega
  | wakes exchange found =>
      refine ⟨ticketedLater, rfl, [], (List.append_nil _).symm, ?_⟩
      rw [List.append_nil]
      exact ((pending_of_woken ticketed found).map _).append_left _
  | endsOutside exchange rest due caller outcome =>
      refine .answered ticketedLater exchange.reason outcome ?_ rfl
      simp [underWay, pending, answer, due, caller]

theorem Steps.continues (steps : Steps allows before after) (ticketed : before.Ticketed)
    (endsNone : ∀ reason outcome, ¬ allows.ends reason outcome) : before.Continues after := by
  induction steps with
  | refl => exact .noted ticketed rfl (List.append_nil _).symm rfl rfl
  | tail _ step inductionHypothesis =>
      exact inductionHypothesis.trans (step.continues inductionHypothesis.ticketed endsNone)

end Steps

end Parting

/-! ## The turn in which a goodbye ends -/

section Turns

variable {peer : Peer}

theorem alarms_parting (peer : Peer) : peer.parting.alarms = peer.alarms := by
  refine filterMap_kind Note.isParting (fun note occurrence alarm => ?_) peer.account
  unfold Note.alarm? at alarm
  split at alarm
  · rfl
  · rfl
  · cases alarm

theorem asked_parting (peer : Peer) : peer.parting.asked = peer.account.filterMap Note.invited? := by
  refine filterMap_kind Note.isParting (fun note reason invited => ?_) peer.account
  unfold Note.invited? at invited
  split at invited
  · rfl
  · cases invited

theorem continues_move {move : Move} (ticketed : peer.parting.Ticketed)
    (endsNone : peer.ends? move = none) : peer.parting.Continues (peer.move move).parting := by
  refine (peer.parted_move move).continues ticketed ?_
  rintro reason outcome ⟨number, ends⟩
  rw [endsNone] at ends
  cases ends

/-- What a turn has done to a peer before it concludes the clean disconnect whose goodbye ends in
it. -/
structure Ready (peer : Peer) (farewell : Farewell) (ready : Peer) (notes : List Note) : Prop where
  account : ready.account = peer.account ++ notes
  quiet : ∀ occurrence, .emitted occurrence ∉ notes
  ticketed : ready.parting.Ticketed
  underWay : ∃ more, ready.parting.asked = peer.parting.asked ++ more ∧
    (farewell.reason :: ready.parting.underWay).Perm (peer.parting.underWay ++ more)

/-- The peer whose handler was asked, at the end of the goodbye in the same turn. -/
theorem ready_of_prompt (ticketed : peer.parting.Ticketed) {farewell : Farewell} {rest : List Turn}
    (line : peer.line = .farewell farewell true :: rest) (handler : GoodbyeHandler) {later : Peer}
    (account : later.account = peer.account ++ [.goodbyeAsked handler farewell.reason])
    (parting : later.parting =
        ({ peer with line := rest }.note (.goodbyeAsked handler farewell.reason)).parting ∨
      later.parting =
        { ({ peer with line := rest }.note (.goodbyeAsked handler farewell.reason)).parting with
          accepted := peer.parting.accepted + 1 }) :
    peer.Ready farewell later [.goodbyeAsked handler farewell.reason] := by
  have asked : later.parting.asked = peer.parting.asked ++ [farewell.reason] := by
    rw [asked_parting, asked_parting, account, List.filterMap_append]
    rfl
  have told : rest.filterMap Turn.saidTo? = peer.parting.told := by
    rw [Peer.parting, line]
    rfl
  have due : rest.filterMap Turn.exchange? = peer.parting.due := by
    rw [Peer.parting, line]
    rfl
  have underWay : later.parting.underWay = peer.parting.underWay := by
    rcases parting with same | same <;>
      simp only [same, Parting.underWay, Parting.pending, ← told, ← due] <;> rfl
  refine ⟨account, by simp, ?_, [farewell.reason], asked, ?_⟩
  · rcases parting with same | same <;> rw [same]
    · exact ticketed.later rfl (Nat.le_refl _)
    · exact ticketed.later rfl (Nat.le_succ _)
  · rw [underWay]
    exact (List.perm_append_singleton _ _).symm

theorem noteAll_nil (peer : Peer) : peer.noteAll [] = peer := by
  rw [noteAll, List.append_nil]

/-- The peer whose handler has ended meanwhile. -/
theorem ready_of_waited (ticketed : peer.parting.Ticketed) {farewell : Farewell} {rest : List Turn}
    (comes : (farewell.reason :: { peer with line := rest }.parting.underWay).Perm
      peer.parting.underWay)
    {notes : List Note} (quiet : ∀ occurrence, .emitted occurrence ∉ notes)
    (unasked : notes.filterMap Note.invited? = []) :
    peer.Ready farewell ({ peer with line := rest }.noteAll notes) notes where
  account := rfl
  quiet := quiet
  ticketed := ticketed.later rfl (Nat.le_refl _)
  underWay := by
    refine ⟨[], ?_, ?_⟩
    · rw [asked_parting, asked_parting, Peer.noteAll, List.filterMap_append, unasked]
    · rw [List.append_nil]
      exact comes

theorem underWay_of_told {farewell : Farewell} {outcome : GoodbyeOutcome} {rest : List Turn}
    (line : peer.line = .goodbyeTold farewell outcome :: rest) :
    (farewell.reason :: { peer with line := rest }.parting.underWay).Perm peer.parting.underWay := by
  rw [parting_of_cons line, Parting.underWay, Parting.underWay, List.append_assoc,
    List.append_assoc]
  exact List.perm_middle.symm

theorem underWay_of_due {exchange : GoodbyeExchange} {number : Nat} {rest : List Turn}
    (line : peer.line = .goodbyeDue exchange :: rest) (caller : exchange.caller = .farewell number) :
    (exchange.reason :: { peer with line := rest }.parting.underWay).Perm peer.parting.underWay := by
  have pending : peer.parting.pending = exchange :: { peer with line := rest }.parting.pending := by
    rw [parting_of_cons line, Parting.pending, Parting.pending]
    refine List.filter_cons_of_pos ?_
    simp [caller]
  rw [Parting.underWay, Parting.underWay, pending, parting_of_cons line]
  exact List.perm_middle.symm

/-- A handler that ends in the turn in which it is asked ends by itself, or its request fails. -/
theorem exists_ready_of_prompt (ticketed : peer.parting.Ticketed) {clock : Clock}
    {farewell : Farewell} {rest : List Turn} (line : peer.line = .farewell farewell true :: rest)
    {outcome : GoodbyeOutcome} (prompt : peer.promptOutcome? clock = some outcome) :
    ∃ ready notes, peer.move (.turn clock) = ready.concludeFarewell farewell outcome ∧
      peer.Ready farewell ready notes := by
  unfold promptOutcome? at prompt
  split at prompt
  · cases prompt
  · rename_i installed
    rw [move_turn_of_cons line]
    simp only [take, beginFarewell, ↓reduceIte, installed, prompt]
    exact ⟨_, _, rfl, ready_of_prompt ticketed line _ rfl (.inl rfl)⟩
  · rename_i timeoutMs installed
    obtain ⟨fault, fails, rfl⟩ := Option.map_eq_some_iff.mp prompt
    rw [move_turn_of_request line installed]
    rcases ({ peer with line := rest }.note
        (.goodbyeAsked (.request timeoutMs) farewell.reason)).parting_requestGoodbye clock
        (.farewell farewell.number) farewell.reason timeoutMs with
      ⟨reported, later, sent, concludes, isReported, account⟩ | ⟨-, waits⟩
    · obtain rfl : reported = fault := Option.some.inj (isReported.symm.trans fails)
      exact ⟨later, _, concludes, ready_of_prompt ticketed line _ account sent⟩
    · have unfailing : peer.requestFault? clock timeoutMs = none := waits
      rw [unfailing] at fails
      cases fails

/-- A goodbye that ends in a turn is concluded there, after whatever else the turn does. -/
theorem exists_ready (ticketed : peer.parting.Ticketed) {clock : Clock} {farewell : Farewell}
    {outcome : GoodbyeOutcome} (ends : peer.turnEnds? clock = some (farewell, outcome)) :
    ∃ ready notes, peer.move (.turn clock) = ready.concludeFarewell farewell outcome ∧
      peer.Ready farewell ready notes := by
  unfold turnEnds? at ends
  split at ends
  · rename_i asking rest line
    obtain ⟨_, prompt, equal⟩ := Option.map_eq_some_iff.mp ends
    obtain ⟨rfl, rfl⟩ := Prod.mk.inj equal
    exact exists_ready_of_prompt ticketed line prompt
  · rename_i told result rest line
    obtain ⟨rfl, rfl⟩ := Prod.mk.inj (Option.some.inj ends)
    rw [move_turn_of_cons line, take, ← noteAll_nil { peer with line := rest }]
    exact ⟨_, [], rfl, ready_of_waited ticketed (underWay_of_told line) (by simp) rfl⟩
  · rename_i exchange rest line
    split at ends
    · rename_i number caller
      obtain ⟨rfl, rfl⟩ := Prod.mk.inj (Option.some.inj ends)
      have comes := underWay_of_due line caller
      rw [move_turn_of_cons line, take, resumeExchange, caller]
      split
      · exact ⟨_, [.logged _], rfl, ready_of_waited ticketed comes (by simp) rfl⟩
      all_goals
        rw [← noteAll_nil { peer with line := rest }]
        exact ⟨_, [], rfl, ready_of_waited ticketed comes (by simp) rfl⟩
    · cases ends
  · cases ends

theorem account_concludeFarewell (peer : Peer) (farewell : Farewell) (outcome : GoodbyeOutcome) :
    (peer.concludeFarewell farewell outcome).account =
      peer.account ++ endNotes farewell.reason outcome := by
  cases outcome <;>
    simp [concludeFarewell, reportFault, reportPanic, disconnectImmediately, emit, Peer.note, enlist,
      endNotes]

theorem line_concludeFarewell (peer : Peer) (farewell : Farewell) (outcome : GoodbyeOutcome) :
    (peer.concludeFarewell farewell outcome).line = peer.line ++ [.close] := by
  cases outcome <;> rfl

theorem mem_farewellsEnded_concludeFarewell (peer : Peer) (farewell : Farewell)
    (outcome : GoodbyeOutcome) :
    farewell.number ∈ (peer.concludeFarewell farewell outcome).farewellsEnded :=
  List.mem_append_right _ List.mem_cons_self

theorem alarm?_of_quiet {notes : List Note} (quiet : ∀ occurrence, .emitted occurrence ∉ notes) :
    notes.filterMap Note.alarm? = [] := by
  refine List.filterMap_eq_nil_iff.mpr fun note member => ?_
  unfold Note.alarm?
  split
  · exact absurd member (quiet _)
  · exact absurd member (quiet _)
  · rfl

end Turns

/-! ## Every goodbye that was asked for -/

/-- What was reported of goodbyes is due to those that ended, and all others are under way. -/
structure Reckoned (peer : Peer) (ended : List (Farewell × GoodbyeOutcome)) : Prop where
  ticketed : peer.parting.Ticketed
  reported : peer.alarms = ended.filterMap fun goodbye => alarmOf? goodbye.1.reason goodbye.2
  placed : (ended.map (fun goodbye => goodbye.1.reason) ++ peer.parting.underWay).Perm
    peer.parting.asked

section History

variable {peer : Peer} {ended : List (Farewell × GoodbyeOutcome)}

theorem reckoned_create (settings : Settings) (address : PeerAddress) (publicKey : String)
    (dialled : Bool) (connection : Connection) (delegates : List Rpc.Delegate) :
    (create settings address publicKey dialled connection delegates).Reckoned [] := by
  have fresh := parting_create settings address publicKey dialled connection delegates
  refine ⟨?_, ?_, ?_⟩
  · exact (unbegun_create settings address publicKey dialled connection delegates).ticketed
  · rw [← alarms_parting, fresh]
    rfl
  · rw [fresh]
    exact List.Perm.refl _

/-- What is asked for comes under way, and stays in a place wherever it goes. -/
theorem placed_of_moved {ended before after asked more : List DisconnectReason}
    (placed : (ended ++ before).Perm asked) (moved : after.Perm (before ++ more)) :
    (ended ++ after).Perm (asked ++ more) := by
  refine (moved.append_left ended).trans ?_
  rw [← List.append_assoc]
  exact placed.append_right more

theorem Reckoned.continued (reckoned : peer.Reckoned ended) {later : Peer}
    (continues : peer.parting.Continues later.parting) : later.Reckoned ended where
  ticketed := continues.ticketed
  reported := by
    rw [← alarms_parting, continues.quiet, alarms_parting]
    exact reckoned.reported
  placed := by
    obtain ⟨more, asked, comes⟩ := continues.underWay
    rw [asked]
    exact placed_of_moved reckoned.placed comes

theorem Reckoned.concluded (reckoned : peer.Reckoned ended) {farewell : Farewell} {ready : Peer}
    {notes : List Note} (isReady : peer.Ready farewell ready notes) (outcome : GoodbyeOutcome) :
    (ready.concludeFarewell farewell outcome).Reckoned (ended ++ [(farewell, outcome)]) where
  ticketed := by
    rw [parting_concludeFarewell]
    exact isReady.ticketed.later rfl (Nat.le_refl _)
  reported := by
    rw [alarms, account_concludeFarewell, isReady.account, List.filterMap_append,
      List.filterMap_append, alarm?_of_quiet isReady.quiet, alarm?_endNotes, List.append_nil,
      List.filterMap_append, ← reckoned.reported]
    cases alarm : alarmOf? farewell.reason outcome <;> simp [alarm, alarms]
  placed := by
    obtain ⟨more, asked, comes⟩ := isReady.underWay
    have same : (ready.concludeFarewell farewell outcome).parting.asked =
        peer.parting.asked ++ more := by
      rw [← asked, asked_parting, asked_parting, account_concludeFarewell, List.filterMap_append,
        Parting.invited?_endNotes, List.append_nil]
    have unchanged : (ready.concludeFarewell farewell outcome).parting.underWay =
        ready.parting.underWay := by
      rw [parting_concludeFarewell]
      rfl
    rw [same, unchanged, List.map_append, List.append_assoc]
    exact placed_of_moved reckoned.placed comes

theorem Reckoned.move (reckoned : peer.Reckoned ended) (move : Move) :
    (peer.move move).Reckoned (ended ++ (peer.ends? move).toList) := by
  cases ends : peer.ends? move with
  | none =>
      rw [Option.toList_none, List.append_nil]
      exact reckoned.continued (continues_move reckoned.ticketed ends)
  | some goodbye =>
      obtain ⟨farewell, outcome⟩ := goodbye
      cases move with
      | turn clock =>
          obtain ⟨ready, notes, concludes, isReady⟩ := exists_ready reckoned.ticketed ends
          rw [concludes]
          exact reckoned.concluded isReady outcome
      | _ => cases ends

theorem Reckoned.play (reckoned : peer.Reckoned ended) (moves : List Move) :
    (peer.play moves).Reckoned (ended ++ peer.goodbyesEnded moves) := by
  induction moves generalizing peer ended with
  | nil =>
      rw [goodbyesEnded, List.append_nil]
      exact reckoned
  | cons move rest inductionHypothesis =>
      rw [goodbyesEnded, play_cons, ← List.append_assoc]
      exact inductionHypothesis (reckoned.move move)

/-- What the turn does in which the goodbye of a clean disconnect ends: it reports the end, and
nothing else, asks for the connection to be closed, and ends the clean disconnect. -/
structure Concludes (before after : Peer) (farewell : Farewell) (outcome : GoodbyeOutcome) :
    Prop where
  account : ∃ notes, after.account = before.account ++ notes ++ endNotes farewell.reason outcome ∧
    ∀ occurrence, .emitted occurrence ∉ notes
  closes : ∃ rest, after.line = rest ++ [.close]
  completed : farewell.number ∈ after.farewellsEnded

theorem concludes_of_ends (ticketed : peer.parting.Ticketed) {clock : Clock} {farewell : Farewell}
    {outcome : GoodbyeOutcome} (ends : peer.turnEnds? clock = some (farewell, outcome)) :
    peer.Concludes (peer.move (.turn clock)) farewell outcome := by
  obtain ⟨ready, notes, concludes, isReady⟩ := exists_ready ticketed ends
  rw [concludes]
  exact
    { account := ⟨notes, by rw [account_concludeFarewell, isReady.account], isReady.quiet⟩
      closes := ⟨ready.line, line_concludeFarewell ready farewell outcome⟩
      completed := mem_farewellsEnded_concludeFarewell ready farewell outcome }

end History

/-- What came of the goodbye that ended. -/
structure GoodbyeOver (start : Peer) (moves : List Move) (farewell : Farewell)
    (outcome : GoodbyeOutcome) : Prop where
  asked : ∃ handler, .goodbyeAsked handler farewell.reason ∈ (start.play moves).account
  recorded : (start.play moves).link.record = some ⟨some farewell.reason, true⟩
  /-- The turn in which it ended. -/
  concluded : ∃ earlier clock later, moves = earlier ++ .turn clock :: later ∧
    (start.play earlier).turnEnds? clock = some (farewell, outcome) ∧
    (start.play earlier).Concludes ((start.play earlier).move (.turn clock)) farewell outcome
  completed : farewell.number ∈ (start.play moves).farewellsEnded
  /-- Whoever waits for the clean disconnect sees that it is over. -/
  seen : ∀ (session : Session) (place : Nat) (kept : KeptFarewell),
    kept ∈ (session.belongingsAt place).farewells → kept.farewell = farewell.number →
      { kept with seen := true } ∈
        ((session.collect place (start.play moves)).2.2.belongingsAt place).farewells

section Reports

variable {start : Peer} {closed : Bool}

/-- The reason of a goodbye that was asked for is the recorded one. -/
theorem recorded_of_asked (isFresh : start.departure = .fresh closed) (moves : List Move)
    {reason : DisconnectReason} (asked : reason ∈ (start.play moves).parting.asked) :
    (start.play moves).link.record = some ⟨some reason, true⟩ := by
  refine (saysOnce_play isFresh moves).recorded reason (List.mem_append_left _ ?_)
  rw [asked_parting, ← filterMap_kind Note.isDeparture fun _ _ => Note.isDeparture_of_invited?]
    at asked
  exact asked

theorem goodbyeOver_of_ended (isFresh : start.departure = .fresh closed)
    (reckoned : start.Reckoned []) {moves : List Move} {farewell : Farewell}
    {outcome : GoodbyeOutcome} (ended : (farewell, outcome) ∈ start.goodbyesEnded moves) :
    start.GoodbyeOver moves farewell outcome := by
  have asked : farewell.reason ∈ (start.play moves).parting.asked := by
    refine (reckoned.play moves).placed.mem_iff.mp (List.mem_append_left _ ?_)
    exact List.mem_map_of_mem ended
  obtain ⟨earlier, clock, later, split, ends⟩ := exists_turn_of_ended ended
  have concludes := concludes_of_ends (reckoned.play earlier).ticketed ends
  have completed : farewell.number ∈ (start.play moves).farewellsEnded := by
    rw [split, play_append, play_cons]
    exact farewellsEnded_play _ later concludes.completed
  refine ⟨?_, recorded_of_asked isFresh moves asked, ⟨earlier, clock, later, split, ends, concludes⟩,
    completed, ?_⟩
  · rw [asked_parting] at asked
    obtain ⟨note, member, invited⟩ := List.mem_filterMap.mp asked
    unfold Note.invited? at invited
    split at invited
    · rename_i handler reason
      obtain rfl := Option.some.inj invited
      exact ⟨handler, member⟩
    · cases invited
  · intro session place kept waits same
    exact session.seen_collect place waits (same ▸ completed)

end Reports

/-! ## Whoever asks for the disconnect -/

/-- A request for a clean disconnect does not panic. -/
theorem disconnectCleanly_ne_panicked (session : Session) (place : Nat) (peer : Peer)
    (reason : DisconnectReason) (kept : Bool) (message : String) :
    (session.performOnHandle place peer (.disconnectCleanly reason kept)).1 ≠ .panicked message := by
  unfold Session.performOnHandle Session.disconnectCleanly
  dsimp only
  split <;> nofun

/-- An adjustment panics if its ban would end beyond the clock's range, and for nothing else. -/
theorem answer_adjust (session : Session) (place : Nat) (peer : Peer)
    (adjustment : Reputation.Adjustment) :
    (session.performOnHandle place peer (.adjust adjustment)).1 =
      if (session.node.adjust place adjustment).1 = .clockOverflow then
        .panicked Reputation.clockOverflow
      else .nothing := by
  unfold Session.performOnHandle
  dsimp only
  cases (session.node.adjust place adjustment).1 <;> rfl

/-! ## The report of a goodbye -/

theorem count_close (line : List Turn) :
    (line.filterMap Turn.errand?).count .close = line.count .close := by
  unfold List.count
  rw [List.countP_filterMap]
  apply List.countP_congr
  intro turn member
  cases turn with
  | goodbyeDue exchange =>
      cases caller : exchange.caller <;> simp [Turn.errand?, GoodbyeCaller.number?, caller]
  | _ => simp [Turn.errand?]

section Created

variable (settings : Settings) (address : PeerAddress) (publicKey : String) (dialled : Bool)
  (connection : Connection) (delegates : List Rpc.Delegate) (moves : List Move)

/-- A goodbye that ended was asked for, and one was at most. -/
theorem goodbyesEnded_le_one :
    ((create settings address publicKey dialled connection delegates).goodbyesEnded moves).length ≤
      1 := by
  have asked := underWay_le_one settings address publicKey dialled connection delegates moves
  rw [entries, count_goodbye, ← asked_parting] at asked
  have placed := ((reckoned_create settings address publicKey dialled connection delegates).play
    moves).placed.length_eq
  rw [List.length_append, List.length_map, List.nil_append] at placed
  omega

/-- Every immediate disconnect has asked the connection to close, or will do so in a turn that stands in
the line. -/
theorem closes_play :
    let peer := (create settings address publicKey dialled connection delegates).play moves
    peer.entries.count .close + peer.line.count .close = peer.entries.count .now := by
  intro peer
  have booked := (create settings address publicKey dialled connection delegates).booked_play moves {}
  rw [books_create] at booked
  have closes := (booked.balanced (Books.balanced_fresh _ _)).counted.closes
  rw [Books.closes, books, count_close] at closes
  exact closes

end Created

/-- At most one goodbye ever ends. What is reported of it is due to how it ended: nothing if it was
said, the fault before the immediate disconnect that follows, a panic after it. Nothing is reported
before it ends, or if none was asked for. Whichever way it ended, the connection is asked to close, as
after every immediate disconnect, and the clean disconnect is over. No panic of a handler comes back
from a request for a clean disconnect, or from an adjustment. -/
theorem alarms_match_goodbye (settings : Settings) (address : PeerAddress) (publicKey : String)
    (dialled : Bool) (connection : Connection) (delegates : List Rpc.Delegate) (moves : List Move) :
    let start := create settings address publicKey dialled connection delegates
    let peer := start.play moves
    let ended := start.goodbyesEnded moves
    (ended = [] ∧ peer.alarms = [] ∨
        ∃ farewell outcome, ended = [(farewell, outcome)] ∧
          peer.alarms = (alarmOf? farewell.reason outcome).toList ∧
          start.GoodbyeOver moves farewell outcome) ∧
      (ended.map (fun goodbye => goodbye.1.reason) ++ peer.parting.underWay).Perm
        (peer.account.filterMap Note.invited?) ∧
      peer.entries.count .close + peer.line.count .close = peer.entries.count .now ∧
      ∀ (session : Session) (place : Nat) (other : Peer),
        (∀ reason kept message, (session.performOnHandle place other
          (.disconnectCleanly reason kept)).1 ≠ .panicked message) ∧
        ∀ adjustment, (session.performOnHandle place other (.adjust adjustment)).1 =
          if (session.node.adjust place adjustment).1 = .clockOverflow then
            .panicked Reputation.clockOverflow
          else .nothing := by
  intro start peer ended
  have isFresh : start.departure = .fresh connection.closed := departure_create _ _ _ _ _ _
  have fresh : start.Reckoned [] := reckoned_create _ _ _ _ _ _
  obtain ⟨-, reported, placed⟩ : peer.Reckoned ended := fresh.play moves
  have once : ended.length ≤ 1 := goodbyesEnded_le_one _ _ _ _ _ _ moves
  rw [asked_parting] at placed
  refine ⟨?_, placed, closes_play settings address publicKey dialled connection delegates moves,
    fun session place other => ⟨disconnectCleanly_ne_panicked session place other,
      answer_adjust session place other⟩⟩
  rcases Nat.le_one_iff_eq_zero_or_eq_one.mp once with none | one
  · have nothing := List.length_eq_zero_iff.mp none
    rw [nothing] at reported
    exact .inl ⟨nothing, reported⟩
  · obtain ⟨⟨farewell, outcome⟩, only⟩ := List.length_eq_one_iff.mp one
    rw [only] at reported
    refine .inr ⟨farewell, outcome, only, ?_, ?_⟩
    · rw [reported]
      cases alarm : alarmOf? farewell.reason outcome <;> simp [alarm]
    · refine goodbyeOver_of_ended isFresh fresh ?_
      show (farewell, outcome) ∈ ended
      rw [only]
      exact List.mem_cons_self

/-- The handler panics without a text. -/
example :
    let peer := (create {} ⟨"peer", "/address"⟩ "key" true {} []).play
      ([.setHandler (.scripted (some (.panicked none))), .disconnectCleanly .shutdown] ++
        List.replicate 4 (.turn {}))
    peer.alarms = [.invariantViolation "clean disconnect" "unknown panic"] ∧
      peer.entries.count .close = 1 ∧ peer.farewellsEnded = [0] := by
  decide +kernel

end PeerLink.Peer
