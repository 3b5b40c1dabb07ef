import PeerLink.Proofs.Peer.Answers

/-!
Contract: the lane of a method, and how a peer moves along it.

The lane of a method is the part of a peer that the requests for this method consist of: its channel,
its calls in the line, those that wait for the remote side, those that were made, and its results. What
is done for another method leaves the lane alone, and what is done for the method itself depends on
nothing outside the lane but on what its calls return.

Owns: lanes, their moves, and the moves of a peer that they stand for.

Does not own: which moves follow each other.
-/

namespace PeerLink.Peer

/-- The call that a turn is about. -/
def Turn.call? : Turn → Option Rpc.Call
  | .call due => some due
  | callTold told _ => some told
  | _ => none

/-- Whether a turn is about a call of this method. -/
def Turn.isOf (method : Rpc.Method) (turn : Turn) : Bool := turn.call?.any (·.method == method)

structure Lane where
  channel : Option Rpc.Channel
  turns : List Turn
  /-- The calls that wait for the remote side. -/
  openCalls : List Rpc.Call
  /-- The calls that were made, in order. -/
  made : List Rpc.Call
  /-- The results, in order of arrival. -/
  results : List (Rpc.Ticket × Rpc.CallResult)

def lane (peer : Peer) (method : Rpc.Method) : Lane where
  channel := peer.table.find? method
  turns := peer.line.filter (Turn.isOf method)
  openCalls := (peer.openCalls.map OpenCall.call).filter (·.method == method)
  made := peer.callsTo method
  results := peer.results.filter (·.1.method == method)

namespace Lane

/-- A request is sent. -/
def accept (lane : Lane) (body : Rpc.Bytes) (sink : Rpc.ResponseSink) : Lane :=
  match lane.channel with
  | none => lane
  | some channel =>
      let (started, queue) :=
        channel.queue.offer ⟨channel.delegate, channel.accepted, body, sink⟩
      { lane with
        channel := some { channel with queue := queue, accepted := channel.accepted + 1 }
        turns := lane.turns ++ started.toList.map Turn.call }

/-- The remote side deals with the call of this ticket, if it waits. -/
def hear (lane : Lane) (ticket : Rpc.Ticket) (outcome : Rpc.CallOutcome) : Lane :=
  match lane.openCalls.find? (·.ticket == ticket) with
  | none => lane
  | some call =>
      { lane with
        openCalls := lane.openCalls.eraseP (·.ticket == ticket)
        turns := lane.turns ++ [.callTold call outcome] }

/-- A call ends: its slot passes on, and what it returned is delivered. -/
def conclude (lane : Lane) (call : Rpc.Call) (outcome : Rpc.CallOutcome) : Lane :=
  { lane with
    channel := lane.channel.map fun channel => { channel with queue := channel.queue.release.2 }
    turns := lane.turns ++
      (lane.channel.bind fun channel => channel.queue.release.1).toList.map Turn.call
    results := lane.results ++ [(call.ticket, outcome.result)] }

/-- A call is made, and returns this or waits for the remote side. -/
def make (lane : Lane) (call : Rpc.Call) (returned : Option Rpc.CallOutcome) : Lane :=
  let made := { lane with made := lane.made ++ [call] }
  match returned with
  | some outcome => made.conclude call outcome
  | none => { made with openCalls := lane.openCalls ++ [call] }

/-- The next turn of the lane is taken, in which a call returns what it returns by itself. -/
def advance (own : Rpc.Call → Option Rpc.CallOutcome) (lane : Lane) : Lane :=
  match lane.turns with
  | .call call :: rest => { lane with turns := rest }.make call (own call)
  | .callTold call outcome :: rest => { lane with turns := rest }.conclude call outcome
  | _ => lane

end Lane

/-! ## What does not touch a lane -/

section Untouched

variable (peer : Peer) (method : Rpc.Method)

theorem lane_note (note : Note) (other : note.made? = none) :
    (peer.note note).lane method = peer.lane method := by
  simp [lane, callsTo, Peer.note, List.filterMap_append, other]

theorem lane_noteAll {notes : List Note} (other : ∀ note ∈ notes, note.made? = none) :
    (peer.noteAll notes).lane method = peer.lane method := by
  simp [lane, callsTo, Peer.noteAll, List.filterMap_append, List.filterMap_eq_nil_iff.mpr other]

theorem lane_enlist (turn : Turn) (other : turn.isOf method = false) :
    (peer.enlist turn).lane method = peer.lane method := by
  simp [lane, callsTo, enlist, List.filter_append, other]

theorem lane_wakeExchange (ticket : Rpc.Ticket) :
    (peer.wakeExchange ticket).lane method = peer.lane method := by
  unfold wakeExchange
  split
  · rfl
  · exact lane_enlist { peer with exchanges := _ } method (.goodbyeDue _) rfl

end Untouched

/-! ## Operations -/

theorem enlistCall_eq (peer : Peer) (call : Option Rpc.Call) :
    peer.enlistCall call = { peer with line := peer.line ++ call.toList.map Turn.call } := by
  cases call with
  | none => simp [enlistCall]
  | some call => rfl

/-- Calls of one method that are put in the line are all in its lane, and in no other. -/
theorem turns_of_calls {calls : List Rpc.Call} {method : Rpc.Method}
    (own : ∀ call ∈ calls, call.method = method) (other : Rpc.Method) :
    (calls.map Turn.call).filter (Turn.isOf other) =
      if other = method then calls.map Turn.call else [] := by
  have same : (calls.map Turn.call).filter (Turn.isOf other) =
      (calls.filter (·.method == other)).map Turn.call := by
    rw [List.filter_map]
    rfl
  rw [same, Rpc.filter_of_method own]
  split <;> rfl

section Operations

variable (peer : Peer) {slots : Nat}

theorem lane_send (method : Rpc.Method) (body : Rpc.Bytes) (sink : Rpc.ResponseSink)
    (other : Rpc.Method) :
    (peer.send method body sink).2.lane other =
      if other = method then (peer.lane other).accept body sink else peer.lane other := by
  unfold send
  cases accepts : peer.table.accept? method body sink with
  | none =>
      have unserved : peer.table.find? method = none := Option.map_eq_none_iff.mp accepts
      dsimp only
      by_cases same : other = method
      · subst same
        rw [if_pos rfl]
        simp only [Lane.accept, lane, unserved]
      · rw [if_neg same]
  | some accepted =>
      obtain ⟨channel, found, -, -, started, replaced⟩ :=
        Rpc.Table.exists_channel_of_accept? accepts
      have starts := turns_of_calls (fun call (member : call ∈ accepted.started.toList) =>
        Rpc.Table.method_of_started accepts (Option.mem_toList.mp member)) other
      dsimp only
      rw [enlistCall_eq]
      by_cases same : other = method
      · subst same
        rw [if_pos rfl, started] at starts
        rw [if_pos rfl]
        simp only [lane, callsTo, Lane.accept, found, replaced, if_pos, List.filter_append, started,
          starts]
      · rw [if_neg same] at starts ⊢
        simp only [lane, callsTo, replaced, if_neg same, List.filter_append, starts,
          List.append_nil]

/-- What a lane is after a call has ended. -/
theorem lane_of_concluded (sound : peer.table.Sound slots) (call : Rpc.Call)
    (result : Rpc.CallResult) (method : Rpc.Method) :
    (peer.concludeCall call result).lane method =
      { peer.lane method with
        channel := (peer.table.release call.method).2.find? method
        turns := (peer.lane method).turns ++
          if method = call.method then (peer.table.release call.method).1.toList.map Turn.call
          else []
        results := (peer.lane method).results ++
          if method = call.method then [(call.ticket, result)] else [] } := by
  have passes := turns_of_calls (fun next (member : next ∈
    (peer.table.release call.method).1.toList) =>
      sound.method_of_released (Option.mem_toList.mp member)) method
  have delivered : [(call.ticket, result)].filter (·.1.method == method) =
      if method = call.method then [(call.ticket, result)] else [] := by
    by_cases same : method = call.method
    · simp [Rpc.Call.ticket, same]
    · simp [Rpc.Call.ticket, same, Ne.symm same]
  unfold concludeCall
  dsimp only
  rw [lane_wakeExchange, enlistCall_eq]
  simp only [lane, callsTo, List.filter_append, passes, delivered]

theorem lane_concludeCall (sound : peer.table.Sound slots) (call : Rpc.Call)
    (outcome : Rpc.CallOutcome) (method : Rpc.Method) :
    (peer.concludeCall call outcome.result).lane method =
      if method = call.method then (peer.lane method).conclude call outcome
      else peer.lane method := by
  rw [lane_of_concluded peer sound]
  cases found : peer.table.find? call.method with
  | none =>
      rw [Rpc.Table.release_of_unserved found]
      split
      · rename_i same
        subst same
        simp only [lane, Lane.conclude, found, Option.map_none, Option.bind_none]
      · simp only [lane, List.append_nil]
  | some channel =>
      obtain ⟨next, replaced⟩ := Rpc.Table.release_of_served found
      rw [replaced]
      split
      · rename_i same
        subst same
        simp only [lane, Lane.conclude, found, next, Option.map_some, Option.bind_some]
      · simp only [lane, List.append_nil]

theorem lane_tellCall (sound : peer.table.Sound slots) (call : Rpc.Call)
    (outcome : Rpc.CallOutcome) (method : Rpc.Method) :
    (peer.tellCall call outcome).lane method =
      if method = call.method then (peer.lane method).conclude call outcome
      else peer.lane method := by
  have heard : (peer.noteAll (sinkNotes call.sink outcome)).lane method = peer.lane method := by
    apply lane_noteAll
    exact forall_mem_sinkNotes (fun _ _ => rfl) (fun _ _ => rfl) _ _
  have told := lane_concludeCall (peer.noteAll (sinkNotes call.sink outcome)) sound call outcome
    method
  rw [heard] at told
  exact told

theorem lane_called (call : Rpc.Call) (method : Rpc.Method) :
    (peer.note (.called call)).lane method =
      if method = call.method then
        { peer.lane method with made := (peer.lane method).made ++ [call] }
      else peer.lane method := by
  have made : (peer.note (.called call)).callsTo method =
      peer.callsTo method ++ [call].filter (·.method == method) := by
    simp only [callsTo, Peer.note, List.filterMap_append, List.filter_append]
    rfl
  have noted : (peer.note (.called call)).lane method =
      { peer.lane method with
        made := peer.callsTo method ++ [call].filter (·.method == method) } := by
    simp only [lane, made]
    rfl
  rw [noted]
  by_cases same : method = call.method
  · simp [lane, same]
  · simp [lane, same, Ne.symm same]

theorem lane_opened (call : Rpc.Call) (method : Rpc.Method) :
    (peer.opened call).lane method = (peer.note (.called call)).lane method :=
  lane_note _ method (.started peer.starts call) rfl

/-- A call is made: its lane depends on what it returns, and no other lane on anything. -/
theorem lane_makeCall (sound : peer.table.Sound slots) (call : Rpc.Call) (method : Rpc.Method) :
    (peer.makeCall call).lane method =
      if method = call.method then
        (peer.lane method).make call (peer.connection.return? call)
      else peer.lane method := by
  have called := peer.lane_called call method
  cases returns : peer.connection.return? call with
  | none =>
      have waits : { peer.opened call with
          openCalls := (peer.opened call).openCalls ++ [OpenCall.mk peer.starts call] }.lane method =
          { (peer.opened call).lane method with
            openCalls := ((peer.opened call).lane method).openCalls ++
              [call].filter (·.method == method) } := by
        simp only [lane, callsTo, List.map_append, List.filter_append, List.map_cons, List.map_nil]
      rw [makeCall_of_wait peer returns, waits, lane_opened, called]
      by_cases same : method = call.method
      · simp [same, Lane.make]
      · simp [same, Ne.symm same]
  | some outcome =>
      cases opens : peer.connection.openStream.1 with
      | none =>
          rw [makeCall_of_return peer opens returns, lane_tellCall (peer.opened call) sound,
            lane_opened, called]
          by_cases same : method = call.method
          · simp [same, Lane.make]
          · simp [same]
      | some fault =>
          have refused : outcome = .failed (.transport fault) := by
            unfold Connection.return? at returns
            rw [opens] at returns
            exact (Option.some.inj returns).symm
          have ended := lane_concludeCall { peer.note (.called call) with
            connection := peer.connection.openStream.2 } sound call outcome method
          rw [makeCall_of_fault peer opens, ← refused, ended]
          change (if method = call.method then ((peer.note (.called call)).lane method).conclude call
            outcome else (peer.note (.called call)).lane method) = _
          rw [called]
          by_cases same : method = call.method
          · simp [same, Lane.make]
          · simp [same]

end Operations

/-! ## Calls that wait -/

/-- The call of this ticket that waits for the remote side. -/
def waitingFor? (peer : Peer) (ticket : Rpc.Ticket) : Option OpenCall :=
  peer.openCalls.find? (·.call.ticket == ticket)

section Waiting

variable {peer : Peer} {ticket : Rpc.Ticket}

/-- Only the lane of a call knows whether it waits. -/
theorem hear_of_unknown (unknown : peer.waitingFor? ticket = none) (outcome : Rpc.CallOutcome) :
    (peer.lane ticket.method).hear ticket outcome = peer.lane ticket.method := by
  have notThere : (peer.lane ticket.method).openCalls.find? (·.ticket == ticket) = none := by
    apply List.find?_eq_none.mpr
    intro call member
    obtain ⟨waiting, waits, rfl⟩ := List.mem_map.mp (List.mem_filter.mp member).1
    exact List.find?_eq_none.mp unknown waiting waits
  rw [Lane.hear, notThere]

/-- The call that is told is the one that waits in its lane. -/
theorem lane_tellOpenCall (distinct : (peer.openCalls.map OpenCall.start).Nodup)
    {waiting : OpenCall} (waits : peer.waitingFor? ticket = some waiting)
    (outcome : Rpc.CallOutcome) (method : Rpc.Method) :
    (peer.tellOpenCall waiting.start outcome).2.lane method =
      if method = ticket.method then (peer.lane method).hear ticket outcome
      else peer.lane method := by
  obtain ⟨isTicket, earlier, later, split, earlierDiffer⟩ := List.find?_eq_some_iff_append.mp waits
  obtain rfl : waiting.call.ticket = ticket := eq_of_beq isTicket
  rw [split] at distinct
  obtain ⟨found, others⟩ := find_and_filter_of_split distinct
  have told : (peer.tellOpenCall waiting.start outcome).2 =
      { peer with openCalls := earlier ++ later }.enlist (.callTold waiting.call outcome) := by
    unfold tellOpenCall
    rw [split, found]
    dsimp only
    rw [others]
  rw [told]
  by_cases same : method = waiting.call.ticket.method
  · subst same
    have inLane : (peer.lane waiting.call.ticket.method).openCalls =
        (earlier.map OpenCall.call).filter (·.method == waiting.call.method) ++ waiting.call ::
          (later.map OpenCall.call).filter (·.method == waiting.call.method) := by
      simp [lane, split, Rpc.Call.ticket]
    have differ : ∀ call ∈ (earlier.map OpenCall.call).filter (·.method == waiting.call.method),
        ¬ (call.ticket == waiting.call.ticket) = true := by
      intro call member
      obtain ⟨other, among, rfl⟩ := List.mem_map.mp (List.mem_filter.mp member).1
      simpa using earlierDiffer other among
    obtain ⟨heard, remaining⟩ :=
      find_and_eraseP_of_split differ (beq_self_eq_true waiting.call.ticket)
    rw [← inLane] at heard remaining
    rw [if_pos rfl, Lane.hear, heard]
    dsimp only
    rw [remaining]
    simp [lane, callsTo, enlist, Turn.isOf, Turn.call?, Rpc.Call.ticket]
  · have different : waiting.call.method ≠ method := Ne.symm same
    have elsewhere : (Turn.callTold waiting.call outcome).isOf method = false := by
      simpa [Turn.isOf, Turn.call?] using different
    rw [lane_enlist _ _ _ elsewhere, if_neg same]
    simp [lane, callsTo, split, different]

end Waiting

/-! ## Turns -/

/-- Whether a turn belongs to requests, or is one of the watcher. -/
def Turn.isPlain : Turn → Bool
  | .call _ | callTold _ _ | watch => true
  | _ => false

/-- If no observer waits, an announcement is no more than a change of the registry. -/
theorem announce_of_nobody (peer : Peer) (nobody : peer.observers.waiting = [])
    (record : DisconnectRecord) :
    ∃ observers, observers.waiting = [] ∧
      peer.announce record = { peer with observers := observers } := by
  unfold Registry.waiting at nobody
  unfold announce Registry.announce?
  cases phase : peer.observers.phase with
  | announced first => exact ⟨peer.observers, by rw [Registry.waiting, phase], rfl⟩
  | waiting observers =>
      rw [phase] at nobody
      obtain rfl : observers = [] := nobody
      exact ⟨{ peer.observers with phase := .announced record }, rfl, rfl⟩

theorem lane_watch (peer : Peer) (nobody : peer.observers.waiting = []) (method : Rpc.Method) :
    peer.watch.lane method = peer.lane method := by
  unfold watch
  split
  · have seen := lane_note { peer with link := peer.link.markClosed.2, watcher := .ended } method
      (.emitted (.connectionClosed peer.link.markClosed.1)) rfl
    obtain ⟨observers, -, announced⟩ := announce_of_nobody ({ peer with
      link := peer.link.markClosed.2
      watcher := .ended }.emit (.connectionClosed peer.link.markClosed.1)) nobody
      peer.link.markClosed.1
    dsimp only
    rw [announced]
    exact seen
  · rfl

section Turns

variable {peer : Peer} {turn : Turn} {rest : List Turn} (line : peer.line = turn :: rest)
  (method : Rpc.Method)

include line

theorem lane_popped_of_ne (other : turn.isOf method = false) :
    { peer with line := rest }.lane method = peer.lane method := by
  simp [lane, callsTo, line, other]

/-- The next turn of the line that is in the lane is the next of the lane. -/
theorem lane_popped_of_own (own : turn.isOf method = true) :
    (peer.lane method).turns = turn :: ({ peer with line := rest }.lane method).turns ∧
      { peer with line := rest }.lane method =
        { peer.lane method with turns := ({ peer with line := rest }.lane method).turns } := by
  simp [lane, callsTo, line, own]

variable {slots : Nat} (sound : peer.table.Sound slots) (clock : Clock)

include sound

/-- A turn in a lane does as the lane does by itself, if the call that is made returns what it returns
by itself. -/
theorem lane_turn_of_own {own : Rpc.Call → Option Rpc.CallOutcome}
    (concerns : turn.isOf method = true)
    (heeds : ∀ call, turn = .call call → peer.connection.return? call = own call) :
    (peer.move (.turn clock)).lane method = (peer.lane method).advance own := by
  obtain ⟨turns, popped⟩ := lane_popped_of_own line method concerns
  rw [move_turn_of_cons line]
  cases turn with
  | call call =>
      have isMethod : call.method = method := by simpa [Turn.isOf, Turn.call?] using concerns
      have made := lane_makeCall { peer with line := rest } sound call method
      rw [if_pos isMethod.symm, popped] at made
      refine made.trans ?_
      rw [Lane.advance, turns]
      exact congrArg _ (heeds call rfl)
  | callTold call outcome =>
      have isMethod : call.method = method := by simpa [Turn.isOf, Turn.call?] using concerns
      have told := lane_tellCall { peer with line := rest } sound call outcome method
      rw [if_pos isMethod.symm, popped] at told
      refine told.trans ?_
      rw [Lane.advance, turns]
  | _ => cases concerns

/-- A turn that belongs to another method, or to the watcher, leaves the lane alone. -/
theorem lane_turn_of_other (isPlain : turn.isPlain = true) (nobody : peer.observers.waiting = [])
    (other : turn.isOf method = false) : (peer.move (.turn clock)).lane method = peer.lane method := by
  rw [move_turn_of_cons line, ← lane_popped_of_ne line method other]
  cases turn with
  | watch => exact lane_watch { peer with line := rest } nobody method
  | call call =>
      have different : ¬ method = call.method := by
        rintro rfl
        simp [Turn.isOf, Turn.call?] at other
      have made := lane_makeCall { peer with line := rest } sound call method
      rw [if_neg different] at made
      exact made
  | callTold call outcome =>
      have different : ¬ method = call.method := by
        rintro rfl
        simp [Turn.isOf, Turn.call?] at other
      have told := lane_tellCall { peer with line := rest } sound call outcome method
      rw [if_neg different] at told
      exact told
  | _ => cases isPlain

end Turns

/-- A turn takes at most one step in a lane, and there it does as the lane does by itself if the call
that is made returns what it returns by itself. -/
theorem lane_turn {peer : Peer} {slots : Nat} (sound : peer.table.Sound slots)
    (plain : ∀ turn ∈ peer.line, turn.isPlain = true) (nobody : peer.observers.waiting = [])
    {own : Rpc.Call → Option Rpc.CallOutcome} {method : Rpc.Method}
    (heeds : ∀ call rest, peer.line = .call call :: rest → call.method = method →
      peer.connection.return? call = own call) (clock : Clock) :
    (peer.move (.turn clock)).lane method = peer.lane method ∨
      (peer.move (.turn clock)).lane method = (peer.lane method).advance own := by
  cases line : peer.line with
  | nil =>
      rw [move_turn_of_nil line]
      exact .inl rfl
  | cons turn rest =>
      by_cases concerns : turn.isOf method
      · right
        apply lane_turn_of_own line method sound clock concerns
        rintro call rfl
        apply heeds call rest line
        simpa [Turn.isOf, Turn.call?] using concerns
      · left
        apply lane_turn_of_other line method sound clock
        · exact plain turn (line ▸ List.mem_cons_self)
        · exact nobody
        · exact Bool.eq_false_iff.mpr concerns

end PeerLink.Peer
