import PeerLink.Proofs.Keyed
import PeerLink.Proofs.Peer.Goodbye
import PeerLink.Proofs.Peer.LeaveTaking

/-!
Contract: what comes of a goodbye request that a clean disconnect makes.

Once it is made it waits or is due, and nothing else is under way; when it ends it is reported once, as
said or as failed. Before, nothing is under way and nothing was reported, and afterwards nothing follows.
A report that the goodbye was said is a line in the log, which a caller outside gets as well for a
request of its own; but such a line is followed by the end of that request, so the lines that remain
are those of the peer itself.

Owns: tallies of what is reported, the stages of a goodbye, and what a step and a history make of them.

Does not own: what brings the goodbye about, and that the deadline comes.
-/

namespace PeerLink.Peer

/-! ## Tallies -/

/-- Whether a note is the line that is logged when the remote side has taken a goodbye. -/
def Note.isSent : Note → Bool
  | logged line => line.message == "Sent goodbye"
  | _ => false

/-- Whether a note tells a caller outside that its goodbye was said. -/
def Note.isAnswered : Note → Bool
  | goodbyeEnded .said => true
  | _ => false

/-- The reason of a clean disconnect that is reported as failed. -/
def Note.failure? : Note → Option DisconnectReason
  | emitted (.cleanDisconnectFailed reason _) => some reason
  | _ => none

def Note.isViolation : Note → Bool
  | emitted (.invariantViolation _ _) => true
  | _ => false

/-- So many goodbyes were said and so many failed, apart from those of callers outside, and nothing
that must never fail did. -/
structure Tally (notes : List Note) (said : Nat) (failures : List DisconnectReason) : Prop where
  said : notes.countP Note.isSent = notes.countP Note.isAnswered + said
  failures : notes.filterMap Note.failure? = failures
  violations : notes.countP Note.isViolation = 0

theorem Tally.append {earlier later : List Note} {said more : Nat}
    {failures others : List DisconnectReason} (first : Tally earlier said failures)
    (second : Tally later more others) : Tally (earlier ++ later) (said + more) (failures ++ others)
    where
  said := by
    rw [List.countP_append, List.countP_append, first.said, second.said]
    omega
  failures := by rw [List.filterMap_append, first.failures, second.failures]
  violations := by rw [List.countP_append, first.violations, second.violations]

theorem Tally.silent {earlier later : List Note} {said : Nat} {failures : List DisconnectReason}
    (tally : Tally earlier said failures) (silent : Tally later 0 []) :
    Tally (earlier ++ later) said failures := by
  have appended := tally.append silent
  rw [Nat.add_zero, List.append_nil] at appended
  exact appended

/-- What is tallied are notes that concern the parting. -/
theorem tally_parting {peer : Peer} {said : Nat} {failures : List DisconnectReason}
    (tally : Tally peer.parting.notes said failures) : Tally peer.account said failures := by
  have counts (count : Note → Bool) (within : ∀ note, count note = true → note.isParting = true) :
      peer.parting.notes.countP count = peer.account.countP count := by
    rw [parting, List.countP_filter]
    refine List.countP_congr fun note _ => ?_
    rw [Bool.and_eq_true]
    exact ⟨And.left, fun counted => ⟨counted, within note counted⟩⟩
  obtain ⟨isSaid, isFailures, violations⟩ := tally
  rw [counts Note.isSent, counts Note.isAnswered] at isSaid
  · rw [counts Note.isViolation] at violations
    · refine ⟨isSaid, ?_, violations⟩
      rw [← isFailures]
      refine (filterMap_kind Note.isParting (fun note reason failed => ?_) peer.account).symm
      unfold Note.failure? at failed
      split at failed
      · rfl
      · cases failed
    · intro note isViolation
      unfold Note.isViolation at isViolation
      split at isViolation
      · rfl
      · cases isViolation
  · intro note isAnswered
    unfold Note.isAnswered at isAnswered
    split at isAnswered
    · rfl
    · cases isAnswered
  · intro note isSent
    unfold Note.isSent at isSent
    split at isSent
    · exact isSent
    · cases isSent

namespace Parting

/-! ## Tickets -/

/-- Every goodbye request that waits has a ticket of its own, which was issued to it. -/
structure Ticketed (state : Parting) : Prop where
  distinct : (state.waiting.map GoodbyeExchange.ticket).Nodup
  issued : ∀ exchange ∈ state.waiting,
    exchange.ticket.method = .goodbye ∧ exchange.ticket.index < state.accepted

section Steps

variable {allows : Leave} {before after : Parting}

theorem Ticketed.later (ticketed : before.Ticketed) (same : after.waiting = before.waiting)
    (more : before.accepted ≤ after.accepted) : after.Ticketed where
  distinct := by
    rw [same]
    exact ticketed.distinct
  issued := by
    intro exchange member
    obtain ⟨method, below⟩ := ticketed.issued exchange (same ▸ member)
    exact ⟨method, Nat.lt_of_lt_of_le below more⟩

theorem Ticketed.await (ticketed : before.Ticketed) (caller : GoodbyeCaller)
    (reason : DisconnectReason) (deadline since : Nat) :
    (before.await caller reason deadline since).Ticketed where
  distinct := by
    rw [Parting.await, List.map_append]
    refine List.nodup_append.mpr ⟨ticketed.distinct, List.pairwise_singleton _ _, ?_⟩
    intro ticket member next added same
    obtain ⟨exchange, waits, rfl⟩ := List.mem_map.mp member
    rw [List.map_singleton, List.mem_singleton] at added
    have earlier := (ticketed.issued exchange waits).2
    rw [same, added] at earlier
    exact Nat.lt_irrefl _ earlier
  issued := by
    intro exchange member
    rcases List.mem_append.mp member with earlier | added
    · obtain ⟨method, below⟩ := ticketed.issued exchange earlier
      exact ⟨method, Nat.lt_succ_of_lt below⟩
    · rw [List.mem_singleton.mp added]
      exact ⟨rfl, Nat.lt_succ_self _⟩

theorem Step.ticketed (step : Step allows before after) (ticketed : before.Ticketed) :
    after.Ticketed := by
  cases step with
  | sends farewell rest invited handler deadline since =>
      have asked : (before.ask handler farewell rest).Ticketed :=
        ticketed.later rfl (Nat.le_refl _)
      exact asked.await _ _ _ _
  | sendsOutside warranted reason deadline since => exact ticketed.await _ _ _ _
  | answers farewell rest invited handler outcome sent =>
      exact ticketed.later rfl (Nat.le_add_right _ _)
  | accepts warranted => exact ticketed.later rfl (Nat.le_succ _)
  | wakes exchange found =>
      exact
        { distinct := ticketed.distinct.sublist (List.filter_sublist.map _)
          issued := fun other member => ticketed.issued other (List.mem_filter.mp member).1 }
  | _ => exact ticketed.later rfl (Nat.le_refl _)

/-! ## Who is asked -/

/-- The reasons with which a handler was asked. -/
def asked (state : Parting) : List DisconnectReason := state.notes.filterMap Note.invited?

theorem invited?_endNotes (reason : DisconnectReason) (outcome : GoodbyeOutcome) :
    (endNotes reason outcome).filterMap Note.invited? = [] := by
  cases outcome <;> rfl

theorem invited?_sentNotes (state : Parting) (reason : DisconnectReason) (outcome : GoodbyeOutcome) :
    (state.sentNotes reason outcome).filterMap Note.invited? = [] := by
  cases outcome <;> rfl

/-- Once a handler is asked there is one reason more, whatever is noted afterwards. -/
theorem asked_of_ask (before : Parting) (handler : GoodbyeHandler) (farewell : Farewell)
    (rest : List Farewell) {notes : List Note} (silent : notes.filterMap Note.invited? = []) :
    ((before.ask handler farewell rest).notes ++ notes).filterMap Note.invited? =
      before.asked ++ [farewell.reason] := by
  rw [List.filterMap_append, silent, List.append_nil, ask, List.filterMap_append]
  rfl

theorem asked_ne_of_ask (before : Parting) (handler : GoodbyeHandler) (farewell : Farewell)
    (rest : List Farewell) {notes : List Note} (silent : notes.filterMap Note.invited? = []) :
    ((before.ask handler farewell rest).notes ++ notes).filterMap Note.invited? ≠ before.asked := by
  rw [asked_of_ask before handler farewell rest silent]
  simp

/-- Handlers are asked by the clean disconnect that wrote the record, and by no other. -/
theorem Step.asked_cases (step : Step allows before after) :
    after.asked = before.asked ∨
      before.invited ≠ [] ∧ ∃ reason, after.asked = before.asked ++ [reason] := by
  have noted {notes : List Note} (silent : notes.filterMap Note.invited? = []) :
      (before.notes ++ notes).filterMap Note.invited? = before.asked := by
    rw [List.filterMap_append, silent, List.append_nil]
    rfl
  have waits {farewell : Farewell} {rest : List Farewell}
      (invited : before.invited = farewell :: rest) : before.invited ≠ [] := by
    rw [invited]
    exact List.cons_ne_nil _ _
  cases step with
  | requestsNow | requestsCleanly | closes => exact .inl (noted rfl)
  | drops adjustment warranted =>
      left
      simp only [asked, request, leave, List.append_assoc]
      exact noted rfl
  | follows | lapses | concludes => exact .inl (noted (invited?_endNotes _ _))
  | answers farewell rest invited handler outcome sent =>
      exact .inr ⟨waits invited, _, asked_of_ask before handler farewell rest
        (invited?_endNotes _ _)⟩
  | holds farewell rest invited handler | sends farewell rest invited handler =>
      have asking := asked_of_ask before handler farewell rest List.filterMap_nil
      rw [List.append_nil] at asking
      exact .inr ⟨waits invited, _, asking⟩
  | failsOutside reason fault | endsOutside exchange rest due caller outcome =>
      left
      simp only [asked, answer, List.append_assoc]
      refine noted ?_
      rw [List.filterMap_append, invited?_sentNotes]
      rfl
  | ends exchange rest due number caller outcome returns =>
      left
      simp only [asked, report, conclude, leave, List.append_assoc]
      refine noted ?_
      rw [List.filterMap_append, invited?_sentNotes, invited?_endNotes]
      rfl
  | accepts | sendsOutside | tells | wakes => exact .inl rfl

theorem Step.asks (step : Step allows before after) : before.asked <+: after.asked := by
  rcases step.asked_cases with same | ⟨-, reason, asked⟩
  · exact same ▸ List.prefix_rfl
  · rw [asked]
    exact List.prefix_append _ _

theorem Steps.asks (steps : Steps allows before after) : before.asked <+: after.asked := by
  induction steps with
  | refl => exact List.prefix_rfl
  | tail _ step inductionHypothesis => exact inductionHypothesis.trans step.asks

/-- Requests are accepted for the handler that is asked, or on behalf of somebody outside. -/
theorem Step.accepted_eq (step : Step allows before after) (unasked : after.asked = before.asked)
    (inside : ¬ allows.sends) : after.accepted = before.accepted := by
  cases step with
  | answers farewell rest invited handler outcome sent =>
      exact absurd unasked (asked_ne_of_ask before handler farewell rest (invited?_endNotes _ _))
  | sends farewell rest invited handler deadline since =>
      refine absurd ?_ (asked_ne_of_ask before handler farewell rest List.filterMap_nil)
      rw [List.append_nil]
      exact unasked
  | accepts warranted | sendsOutside warranted => exact absurd warranted inside
  | _ => rfl

theorem Steps.accepted_eq (steps : Steps allows before after) (unasked : after.asked = before.asked)
    (inside : ¬ allows.sends) : after.accepted = before.accepted := by
  induction steps with
  | refl => rfl
  | @tail middle after earlier step inductionHypothesis =>
      have middleUnasked : middle.asked = before.asked := by
        refine (List.IsPrefix.eq_of_length_le (Steps.asks earlier) ?_).symm
        exact Nat.le_trans step.asks.length_le (Nat.le_of_eq (congrArg List.length unasked))
      exact (step.accepted_eq (unasked.trans middleUnasked.symm) inside).trans
        (inductionHypothesis middleUnasked)

/-! ## The stages of a goodbye -/

/-- The goodbye requests under way for clean disconnects. -/
def pending (state : Parting) : List GoodbyeExchange :=
  (state.due ++ state.waiting).filter (·.caller != .outside)

/-- At most one goodbye request is under way and nothing else is, and so much was reported. -/
structure Stage (state : Parting) (exchange : Option GoodbyeExchange) (said : Nat)
    (failures : List DisconnectReason) : Prop where
  held : state.held = []
  told : state.told = []
  pending : state.pending = exchange.toList
  tally : Tally state.notes said failures

theorem tally_endNotes_said (reason : DisconnectReason) : Tally (endNotes reason .said) 0 [] :=
  ⟨rfl, rfl, rfl⟩

theorem tally_endNotes_failed (reason : DisconnectReason) (fault : DisconnectError) :
    Tally (endNotes reason (.failed fault)) 0 [reason] := ⟨rfl, rfl, rfl⟩

theorem Stage.silent {exchange : Option GoodbyeExchange} {said : Nat}
    {failures : List DisconnectReason} (stage : before.Stage exchange said failures)
    {notes : List Note} (held : after.held = before.held) (told : after.told = before.told)
    (pending : after.pending = before.pending) (noted : after.notes = before.notes ++ notes)
    (silent : Tally notes 0 []) : after.Stage exchange said failures where
  held := held.trans stage.held
  told := told.trans stage.told
  pending := pending.trans stage.pending
  tally := by
    rw [noted]
    exact stage.tally.silent silent

/-- What is noted at the end of a request made by a caller outside leaves the tally as it is. -/
theorem tally_answer (state : Parting) (reason : DisconnectReason) (outcome : GoodbyeOutcome) :
    Tally (state.sentNotes reason outcome ++ [.goodbyeEnded outcome]) 0 [] := by
  cases outcome <;> exact ⟨rfl, rfl, rfl⟩

theorem tally_report_said (state : Parting) (reason : DisconnectReason) :
    Tally (state.sentNotes reason .said ++ endNotes reason .said) 1 [] := ⟨rfl, rfl, rfl⟩

theorem tally_report_failed (state : Parting) (reason : DisconnectReason) (fault : DisconnectError) :
    Tally (state.sentNotes reason (.failed fault) ++ endNotes reason (.failed fault)) 0 [reason] :=
  ⟨rfl, rfl, rfl⟩

/-- A request that is woken goes from where it waits to the line, and no other does. -/
theorem pending_of_woken (ticketed : before.Ticketed) {exchange : GoodbyeExchange}
    (found : before.waiting.find? (·.ticket == exchange.ticket) = some exchange) :
    ((before.due ++ [exchange] ++ before.waiting.filter (·.ticket != exchange.ticket)).filter
      (·.caller != .outside)).Perm before.pending := by
  have woken := perm_cons_filter ticketed.distinct found
  refine List.Perm.filter _ ?_
  rw [List.append_assoc]
  exact woken.symm.append_left before.due

/-- A step at which no handler is asked leaves the stage as it is, or the request under way ends and is
reported. -/
theorem Step.stage (step : Step allows before after) (ticketed : before.Ticketed)
    (unasked : after.asked = before.asked) {exchange : Option GoodbyeExchange} {said : Nat}
    {failures : List DisconnectReason} (stage : before.Stage exchange said failures) :
    after.Stage exchange said failures ∨ ∃ ended, exchange = some ended ∧
      (after.Stage none (said + 1) failures ∧
          .logged (after.goodbyeLine ended.reason) ∈ after.notes ∨
        after.Stage none said (failures ++ [ended.reason])) := by
  cases step with
  | requestsNow record | requestsCleanly reason | closes =>
      exact .inl (stage.silent rfl rfl rfl rfl ⟨rfl, rfl, rfl⟩)
  | drops adjustment warranted =>
      exact .inl (stage.silent rfl rfl rfl (List.append_assoc _ _ _) ⟨rfl, rfl, rfl⟩)
  | follows reason | lapses farewell rest invited =>
      exact .inl (stage.silent rfl rfl rfl rfl (tally_endNotes_said _))
  | answers farewell rest invited handler outcome sent =>
      exact absurd unasked (asked_ne_of_ask before handler farewell rest (invited?_endNotes _ _))
  | holds farewell rest invited handler | sends farewell rest invited handler =>
      refine absurd ?_ (asked_ne_of_ask before handler farewell rest List.filterMap_nil)
      rw [List.append_nil]
      exact unasked
  | accepts warranted =>
      exact .inl (stage.silent rfl rfl rfl (List.append_nil _).symm ⟨rfl, rfl, rfl⟩)
  | sendsOutside warranted reason deadline since =>
      refine .inl (stage.silent rfl rfl ?_ (List.append_nil _).symm ⟨rfl, rfl, rfl⟩)
      simp [Parting.pending, await]
  | failsOutside reason fault =>
      exact .inl (stage.silent rfl rfl rfl (List.append_assoc _ _ _) (tally_answer _ _ _))
  | tells farewell rest held outcome =>
      rw [stage.held] at held
      cases held
  | concludes farewell outcome rest told =>
      rw [stage.told] at told
      cases told
  | wakes woken found =>
      left
      refine ⟨stage.held, stage.told, ?_, stage.tally⟩
      have moved := pending_of_woken ticketed found
      rw [stage.pending] at moved
      cases exchange with
      | none => exact List.perm_nil.mp moved
      | some exchange => exact List.perm_singleton.mp moved
  | ends ended rest due number caller outcome returns =>
      -- The request that ends is the one under way, as it is made for a clean disconnect.
      have first : before.pending = ended :: (rest ++ before.waiting).filter (·.caller != .outside) := by
        simp [Parting.pending, due, caller]
      rw [stage.pending] at first
      obtain ⟨rfl, others⟩ : exchange = some ended ∧
          (rest ++ before.waiting).filter (·.caller != .outside) = [] := by
        cases exchange with
        | none => cases first
        | some exchange =>
            obtain ⟨rfl, others⟩ := List.cons_eq_cons.mp first
            exact ⟨rfl, others.symm⟩
      refine .inr ⟨ended, rfl, ?_⟩
      cases outcome with
      | said =>
          refine .inl ⟨⟨stage.held, stage.told, others, ?_⟩, ?_⟩
          · have tally := stage.tally.append (tally_report_said { before with due := rest } ended.reason)
            rw [List.append_nil, ← List.append_assoc] at tally
            exact tally
          · simp [report, conclude, leave, sentNotes, goodbyeLine]
      | failed fault =>
          refine .inr ⟨stage.held, stage.told, others, ?_⟩
          have tally :=
            stage.tally.append (tally_report_failed { before with due := rest } ended.reason fault)
          rw [← List.append_assoc] at tally
          exact tally
      | panicked message => exact absurd rfl (returns message)
  | endsOutside ended rest due caller outcome =>
      refine .inl (stage.silent rfl rfl ?_ (List.append_assoc _ _ _) (tally_answer _ _ _))
      simp [Parting.pending, answer, due, caller]

/-! ## Before the goodbye, and after it was asked for -/

/-- Until a handler is asked nothing is under way, and nothing was reported. -/
structure Unbegun (state : Parting) : Prop where
  ticketed : state.Ticketed
  idle : state.asked = [] → state.Stage none 0 []

theorem Step.unbegun (step : Step allows before after) (unbegun : before.Unbegun) :
    after.Unbegun where
  ticketed := step.ticketed unbegun.ticketed
  idle := by
    intro nobody
    have unasked : after.asked = before.asked := by
      rcases step.asked_cases with same | ⟨-, reason, asked⟩
      · exact same
      · rw [nobody] at asked
        exact absurd asked.symm (List.append_ne_nil_of_right_ne_nil _ (List.cons_ne_nil _ _))
    have idle := unbegun.idle (unasked ▸ nobody)
    rcases step.stage unbegun.ticketed unasked idle with kept | ⟨ended, underWay, -⟩
    · exact kept
    · cases underWay

/-- Where the one goodbye is that was asked for with this reason: its request waits until the deadline
or has an end that is still to be reported, or it was reported as said, or as failed. -/
inductive Phase (reason : DisconnectReason) (deadline : Nat) (state : Parting) : Prop where
  | waits (exchange : GoodbyeExchange) (sameReason : exchange.reason = reason)
      (sameDeadline : exchange.deadline = deadline) (stage : state.Stage (some exchange) 0 [])
  | said (stage : state.Stage none 1 []) (logged : .logged (state.goodbyeLine reason) ∈ state.notes)
  | failed (stage : state.Stage none 0 [reason])

/-- The clean disconnect that wrote the record has begun, and asked a handler that makes a request. -/
structure Begun (reason : DisconnectReason) (deadline : Nat) (state : Parting) : Prop where
  ticketed : state.Ticketed
  recorded : state.record ≠ none
  uninvited : state.invited = []
  phase : Phase reason deadline state

/-- Once there is a record, no clean disconnect joins the line as the one that wrote it. -/
theorem Step.uninvited (step : Step allows before after) (recorded : before.record ≠ none)
    (uninvited : before.invited = []) : after.record ≠ none ∧ after.invited = [] := by
  have unwritten : before.record.isNone = false :=
    Option.isNone_eq_false_iff.mpr (Option.isSome_iff_ne_none.mpr recorded)
  cases step with
  | requestsCleanly | drops =>
      exact ⟨Option.some_ne_none _, by simp [request, leave, uninvited, unwritten]⟩
  | lapses farewell rest invited | answers farewell rest invited | holds farewell rest invited
  | sends farewell rest invited =>
      rw [uninvited] at invited
      cases invited
  | requestsNow | closes | follows | concludes | ends =>
      exact ⟨Option.some_ne_none _, uninvited⟩
  | _ => exact ⟨recorded, uninvited⟩

theorem Step.keepsNotes (step : Step allows before after) :
    after.id = before.id ∧ before.notes <+: after.notes := by
  cases step with
  | accepts | sendsOutside | tells | wakes => exact ⟨rfl, List.prefix_rfl⟩
  | requestsNow | requestsCleanly | closes | follows | lapses | holds | sends | concludes =>
      exact ⟨rfl, List.prefix_append _ _⟩
  | drops | answers | failsOutside | ends | endsOutside =>
      refine ⟨rfl, ?_⟩
      simp [request, leave, conclude, ask, answer, report]

theorem Step.begun (step : Step allows before after) {reason : DisconnectReason} {deadline : Nat}
    (begun : before.Begun reason deadline) : after.Begun reason deadline := by
  obtain ⟨ticketed, recorded, uninvited, phase⟩ := begun
  obtain ⟨laterRecorded, laterUninvited⟩ := step.uninvited recorded uninvited
  refine ⟨step.ticketed ticketed, laterRecorded, laterUninvited, ?_⟩
  have unasked : after.asked = before.asked :=
    step.asked_cases.resolve_right fun asks => asks.1 uninvited
  cases phase with
  | waits exchange sameReason sameDeadline stage =>
      rcases step.stage ticketed unasked stage with
        kept | ⟨ended, underWay, ⟨said, logged⟩ | failed⟩
      · exact .waits exchange sameReason sameDeadline kept
      · obtain rfl := Option.some.inj underWay
        exact .said said (sameReason ▸ logged)
      · obtain rfl := Option.some.inj underWay
        exact .failed (sameReason ▸ failed)
  | said stage logged =>
      rcases step.stage ticketed unasked stage with kept | ⟨ended, underWay, -⟩
      · obtain ⟨sameId, grows⟩ := step.keepsNotes
        refine .said kept ?_
        rw [goodbyeLine, sameId]
        exact grows.subset logged
      · cases underWay
  | failed stage =>
      rcases step.stage ticketed unasked stage with kept | ⟨ended, underWay, -⟩
      · exact .failed kept
      · cases underWay

end Steps

end Parting

/-! ## Along a history -/

section History

variable {peer : Peer}

theorem parted_preserves {holds : Parting → Prop}
    (each : ∀ {allows before after}, Parting.Step allows before after →
      holds before → holds after)
    (initially : holds peer.parting) (moves : List Move) : holds (peer.play moves).parting := by
  induction moves generalizing peer with
  | nil => exact initially
  | cons first rest inductionHypothesis =>
      exact inductionHypothesis ((peer.parted_move first).preserves each initially)

theorem parting_create (settings : Settings) (address : PeerAddress) (publicKey : String)
    (dialled : Bool) (connection : Connection) (delegates : List Rpc.Delegate) :
    (create settings address publicKey dialled connection delegates).parting =
      { id := address.peerId
        record := none
        farewells := 0
        invited := []
        held := []
        told := []
        waiting := []
        due := []
        accepted := 0
        notes := [] } := by
  have duplicates : ((Rpc.Table.ofDelegates settings.maxConcurrentRequests delegates).1.map
      Note.logged).filter Note.isParting = [] := by
    refine List.filter_eq_nil_iff.mpr fun note member => ?_
    obtain ⟨line, logged, rfl⟩ := List.mem_map.mp member
    obtain ⟨delegate, -, rfl⟩ := Rpc.Table.duplicateLine_of_registerAll logged
    exact Bool.false_ne_true
  have accepted := Rpc.Table.acceptedOf_ofDelegates settings.maxConcurrentRequests delegates .goodbye
  simp only [create, parting, duplicates, accepted]
  rfl

theorem unbegun_create (settings : Settings) (address : PeerAddress) (publicKey : String)
    (dialled : Bool) (connection : Connection) (delegates : List Rpc.Delegate) :
    (create settings address publicKey dialled connection delegates).parting.Unbegun := by
  rw [parting_create]
  exact
    { ticketed := ⟨List.nodup_nil, nofun⟩
      idle := fun _ => ⟨rfl, rfl, rfl, rfl, rfl, rfl⟩ }

/-- The clean disconnect that wrote the record begins, and its handler makes a request. -/
theorem begun_turn (unbegun : peer.parting.Unbegun) (nobody : peer.parting.asked = [])
    {farewell : Farewell} {rest : List Turn} (line : peer.line = .farewell farewell true :: rest)
    (last : rest.filterMap Turn.invited? = []) (recorded : peer.link.record ≠ none)
    {timeoutMs : Nat} (installed : peer.handler = some (.request timeoutMs)) (clock : Clock) :
    (peer.move (.turn clock)).parting.Begun farewell.reason (clock.now + timeoutMs) := by
  have popped : ({ peer with line := rest }.note
      (.goodbyeAsked (.request timeoutMs) farewell.reason)).parting =
      peer.parting.ask (.request timeoutMs) farewell [] := by
    rw [parting_asked]
    simp [parting, Parting.ask, Peer.id, line, last, List.filterMap_cons, Turn.saidTo?,
      Turn.exchange?]
  have idle := unbegun.idle nobody
  have asking : Tally (peer.parting.ask (.request timeoutMs) farewell []).notes 0 [] :=
    idle.tally.silent ⟨rfl, rfl, rfl⟩
  have failing (fault : DisconnectError) :
      Tally ((peer.parting.ask (.request timeoutMs) farewell []).notes ++
        endNotes farewell.reason (.failed fault)) 0 [farewell.reason] :=
    asking.append (Parting.tally_endNotes_failed farewell.reason fault)
  have ticketed : (peer.parting.ask (.request timeoutMs) farewell []).Ticketed :=
    unbegun.ticketed.later rfl (Nat.le_refl _)
  rw [move_turn_of_request line installed]
  generalize { peer with line := rest }.note
    (.goodbyeAsked (.request timeoutMs) farewell.reason) = noted at popped
  rcases noted.parting_requestGoodbye clock (.farewell farewell.number) farewell.reason timeoutMs with
    ⟨fault, later, unsent | sent, ends, -⟩ | ⟨waits, -⟩
  · rw [ends, concludeExchange, parting_concludeFarewell, unsent, popped]
    exact
      { ticketed := ticketed.later rfl (Nat.le_refl _)
        recorded := Option.some_ne_none _
        uninvited := rfl
        phase := .failed ⟨idle.held, idle.told, idle.pending, failing fault⟩ }
  · rw [ends, concludeExchange, parting_concludeFarewell, sent, popped]
    exact
      { ticketed := ticketed.later rfl (Nat.le_succ _)
        recorded := Option.some_ne_none _
        uninvited := rfl
        phase := .failed ⟨idle.held, idle.told, idle.pending, failing fault⟩ }
  · rw [waits, popped]
    let exchange : GoodbyeExchange := ⟨.farewell farewell.number, farewell.reason,
      ⟨.goodbye, peer.parting.accepted⟩, clock.now + timeoutMs, clock.turns⟩
    refine ⟨ticketed.await _ _ _ _, recorded, rfl,
      .waits exchange rfl rfl ⟨idle.held, idle.told, ?_, asking⟩⟩
    have others : (peer.parting.due ++ peer.parting.waiting).filter (·.caller != .outside) = [] :=
      idle.pending
    simp [Parting.pending, Parting.await, Parting.ask, ← List.append_assoc, others, exchange]

end History

end PeerLink.Peer
