import PeerLink.Proofs.Peer.Footprint
import PeerLink.Proofs.Peer.Traffic

/-!
Contract: that every move of a peer is a step of its traffic.

Owns: which call returns with a move and what it returns, what of a peer does not touch its traffic,
and `traffic_move`.

Does not own: what the steps preserve.
-/

namespace PeerLink.Peer

/-! ## What calls return -/

/-- What a call returns in the turn in which it is made, unless it waits for the remote side. -/
def Connection.return? (connection : Connection) (call : Rpc.Call) : Option Rpc.CallOutcome :=
  match connection.openStream.1, call.delegate.conduct with
  | some fault, _ => some (.failed (.transport fault))
  | none, .instant => some (.answered [call.body])
  | none, .panics => some .panicked
  | none, .gated => none

/-- The call that returns with a move, and what it returns. -/
def return? (peer : Peer) : Move → Option Return
  | .turn _ =>
      match peer.line with
      | .call call :: _ => (peer.connection.return? call).map fun outcome => (call, outcome)
      | _ => none
  | .tellCall start outcome =>
      (peer.openCalls.find? (·.start == start)).map fun waiting => (waiting.call, outcome)
  | _ => none

/-- The calls that return in the course of a history, each with what it returns. -/
def returns (peer : Peer) : List Move → List Return
  | [] => []
  | move :: rest => (peer.return? move).toList ++ (peer.move move).returns rest

/-! ## What the traffic does not show -/

/-- Whether a change of this aspect shows in the traffic. -/
def Aspect.inTraffic : Aspect → Bool
  | .call | .table => true
  | _ => false

theorem Note.made?_of_aspect {note : Note} (unseen : note.aspect.inTraffic = false) :
    note.made? = none := by
  cases note with
  | called => cases unseen
  | _ => rfl

theorem Turn.noCall_of_aspect {turn : Turn} (unseen : turn.aspect.inTraffic = false) :
    turn.due? = none ∧ turn.told? = none := by
  cases turn with
  | call | callTold => cases unseen
  | _ => exact ⟨rfl, rfl⟩

section Untouched

variable {before after : Peer} {returned : List Return}

theorem traffic_note (peer : Peer) (note : Note) (other : note.made? = none) :
    (peer.note note).traffic returned = peer.traffic returned := by
  simp [traffic, Peer.note, List.filterMap_append, other]

theorem traffic_noteAll (peer : Peer) {notes : List Note}
    (other : ∀ note ∈ notes, note.made? = none) :
    (peer.noteAll notes).traffic returned = peer.traffic returned := by
  simp [traffic, Peer.noteAll, List.filterMap_append, List.filterMap_eq_nil_iff.mpr other]

theorem Change.traffic_eq {aspect : Aspect} (change : Change before aspect after)
    (unseen : aspect.inTraffic = false) : after.traffic returned = before.traffic returned := by
  cases change with
  | note note => exact before.traffic_note note (Note.made?_of_aspect unseen)
  | enlist turn =>
      obtain ⟨due, told⟩ := Turn.noCall_of_aspect unseen
      simp [traffic, Peer.enlist, List.filterMap_append, due, told]
  | openCalls | starts | results | table => cases unseen
  | _ => rfl

theorem ChangesOnly.traffic_eq {aspects : List Aspect} (changes : before.ChangesOnly aspects after)
    (unseen : aspects.any Aspect.inTraffic = false) :
    after.traffic returned = before.traffic returned :=
  changes.view_eq Change.traffic_eq unseen

end Untouched

/-! ## Requests and calls -/

section Calls

variable (peer : Peer) {returned : List Return}

theorem traffic_enlistCall (call : Option Rpc.Call) :
    (peer.enlistCall call).traffic returned =
      { peer.traffic returned with due := (peer.traffic returned).due ++ call.toList } := by
  cases call with
  | none => simp [enlistCall]
  | some call => simp [enlistCall, traffic, enlist, Turn.due?, Turn.told?]

theorem traffic_of_accepts {method : Rpc.Method} {body : Rpc.Bytes} {sink : Rpc.ResponseSink}
    {accepted : Rpc.Table.Accepted} (accepts : peer.table.accept? method body sink = some accepted) :
    (peer.send method body sink).2.traffic returned = (peer.traffic returned).accept accepted := by
  unfold send
  rw [accepts]
  exact traffic_enlistCall _ _

theorem traffic_send (method : Rpc.Method) (body : Rpc.Bytes) (sink : Rpc.ResponseSink) :
    Traffic.Step (peer.traffic returned) ((peer.send method body sink).2.traffic returned) := by
  cases accepts : peer.table.accept? method body sink with
  | none =>
      rw [show peer.send method body sink = (none, peer) by simp only [send, accepts]]
      exact .stays
  | some accepted =>
      rw [peer.traffic_of_accepts accepts]
      exact .accepts method body sink accepted accepts

theorem traffic_concludeCall (call : Rpc.Call) (outcome : Rpc.CallOutcome) :
    (peer.concludeCall call outcome.result).traffic returned =
      (peer.traffic returned).conclude (call, outcome) := by
  have released : ({ peer with table := (peer.table.release call.method).2 }.enlistCall
      (peer.table.release call.method).1).traffic returned = _ := traffic_enlistCall _ _
  unfold concludeCall
  dsimp only
  rw [(changes_wakeExchange _ _).traffic_eq rfl]
  have delivered := congrArg (fun carried : Traffic =>
    { carried with results := carried.results ++ [(call.ticket, outcome.result)] }) released
  exact delivered

theorem traffic_tellCall (call : Rpc.Call) (outcome : Rpc.CallOutcome) :
    (peer.tellCall call outcome).traffic returned =
      (peer.traffic returned).conclude (call, outcome) := by
  have heard : (peer.noteAll (sinkNotes call.sink outcome)).traffic returned =
      peer.traffic returned := by
    apply peer.traffic_noteAll
    exact forall_mem_sinkNotes (fun _ _ => rfl) (fun _ _ => rfl) _ _
  rw [← heard]
  exact traffic_concludeCall _ call outcome

/-- The peer when the delegate of a call was called and has its stream open. -/
def opened (peer : Peer) (call : Rpc.Call) : Peer :=
  { peer.note (.called call) with
    connection := peer.connection.openStream.2
    starts := peer.starts + 1 }.note (.started peer.starts call)

theorem makeCall_of_fault {call : Rpc.Call} {fault : TransportError}
    (refused : peer.connection.openStream.1 = some fault) :
    peer.makeCall call =
      { peer.note (.called call) with connection := peer.connection.openStream.2 }.concludeCall call
        (Rpc.CallOutcome.failed (.transport fault)).result := by
  simp only [makeCall, Peer.note, refused, Rpc.CallOutcome.result]

theorem makeCall_of_return {call : Rpc.Call} {outcome : Rpc.CallOutcome}
    (opens : peer.connection.openStream.1 = none)
    (returns : peer.connection.return? call = some outcome) :
    peer.makeCall call = (peer.opened call).tellCall call outcome := by
  unfold Connection.return? at returns
  rw [opens] at returns
  cases conduct : call.delegate.conduct <;> rw [conduct] at returns <;> cases returns <;>
    simp only [makeCall, opened, Peer.note, opens, conduct]

theorem makeCall_of_wait {call : Rpc.Call} (waits : peer.connection.return? call = none) :
    peer.makeCall call =
      { peer.opened call with
        openCalls := (peer.opened call).openCalls ++ [OpenCall.mk peer.starts call] } := by
  unfold Connection.return? at waits
  cases opens : peer.connection.openStream.1 <;> rw [opens] at waits
  · cases conduct : call.delegate.conduct <;> rw [conduct] at waits <;> cases waits
    simp only [makeCall, opened, Peer.note, opens, conduct]
  · cases waits

theorem traffic_opened (call : Rpc.Call) :
    (peer.opened call).traffic returned =
      { peer.note (.called call) with starts := peer.starts + 1 }.traffic returned :=
  traffic_note _ (.started peer.starts call) rfl

theorem traffic_waiting (call : Rpc.Call) :
    { peer.opened call with
      openCalls := (peer.opened call).openCalls ++ [OpenCall.mk peer.starts call] }.traffic returned =
      ((peer.note (.called call)).traffic returned).wait call := by
  simp [traffic, opened, Peer.note, Traffic.wait, List.filterMap_append, Note.made?]

section Making

variable {peer} {call : Rpc.Call} {rest : List Turn} (line : peer.line = .call call :: rest)

include line

theorem due_of_call :
    (peer.traffic returned).due = call :: rest.filterMap Turn.due? := by
  simp [traffic, line, Turn.due?]

theorem traffic_called :
    ({ peer with line := rest }.note (.called call)).traffic returned =
      (peer.traffic returned).make call (rest.filterMap Turn.due?) := by
  simp [traffic, Peer.note, Traffic.make, line, List.filterMap_cons, Turn.told?, Note.made?]

/-- A call that was made returns and ends. Of what has changed since it was made, only the number of
open streams touches the traffic. -/
theorem traffic_of_returns (later : Peer) (outcome : Rpc.CallOutcome)
    (grown : peer.starts ≤ later.starts)
    (same : later.traffic returned =
      { { peer with line := rest }.note (.called call) with
        starts := later.starts }.traffic returned) :
    Traffic.Step (peer.traffic returned)
      ((later.traffic (returned ++ [(call, outcome)])).conclude (call, outcome)) := by
  have noted : later.traffic (returned ++ [(call, outcome)]) =
      ((peer.traffic returned).make call (rest.filterMap Turn.due?)).note (call, outcome)
        later.starts := by
    rw [← traffic_called line]
    exact congrArg (fun carried => carried.note (call, outcome) later.starts) same
  rw [noted]
  exact .returns call _ outcome later.starts (due_of_call line) grown

/-- A call is made. It returns in this turn, or its stream is open and it waits. -/
theorem traffic_makeCall :
    Traffic.Step (peer.traffic returned)
      (({ peer with line := rest }.makeCall call).traffic
        (returned ++
          ((peer.connection.return? call).map fun outcome => (call, outcome)).toList)) := by
  cases returns : peer.connection.return? call with
  | none =>
      rw [makeCall_of_wait { peer with line := rest } returns]
      rw [Option.map_none, Option.toList_none, List.append_nil,
        traffic_waiting { peer with line := rest }, traffic_called line]
      exact .opens call _ (due_of_call line)
  | some outcome =>
      rw [Option.map_some, Option.toList_some]
      cases opens : peer.connection.openStream.1 with
      | none =>
          rw [makeCall_of_return { peer with line := rest } opens returns, traffic_tellCall]
          exact traffic_of_returns line _ outcome (Nat.le_succ _) (traffic_opened _ call)
      | some fault =>
          have refused : outcome = .failed (.transport fault) := by
            unfold Connection.return? at returns
            rw [opens] at returns
            exact (Option.some.inj returns).symm
          rw [makeCall_of_fault { peer with line := rest } opens, refused, traffic_concludeCall]
          exact traffic_of_returns line _ _ (Nat.le_refl _) rfl

end Making

theorem traffic_tellOpenCall (start : Nat) (outcome : Rpc.CallOutcome) :
    Traffic.Step (peer.traffic returned)
      ((peer.tellOpenCall start outcome).2.traffic
        (returned ++ (peer.return? (.tellCall start outcome)).toList)) := by
  unfold tellOpenCall return?
  dsimp only
  cases found : peer.openCalls.find? (·.start == start) with
  | none =>
      dsimp only [Option.map_none, Option.toList_none]
      rw [List.append_nil]
      exact .stays
  | some waiting =>
      have matched := List.find?_some found
      obtain rfl : waiting.start = start := eq_of_beq matched
      have heard : ({ peer with
          openCalls := peer.openCalls.filter (·.start != waiting.start) }.enlist
          (.callTold waiting.call outcome)).traffic (returned ++ [(waiting.call, outcome)]) =
          (peer.traffic returned).hear waiting outcome := by
        simp [traffic, enlist, Traffic.hear, Turn.due?, Turn.told?]
      have step : Traffic.Step (peer.traffic returned) _ := .hears waiting outcome found
      rw [← heard] at step
      exact step

end Calls

/-! ## Goodbyes -/

section Goodbyes

variable (peer : Peer) {returned : List Return}

theorem traffic_requestGoodbye (clock : Clock) (caller : GoodbyeCaller) (reason : DisconnectReason)
    (timeoutMs : Nat) :
    Traffic.Step (peer.traffic returned)
      ((peer.requestGoodbye clock caller reason timeoutMs).traffic returned) := by
  have sends : Traffic.Step (peer.traffic returned)
      ((peer.send .goodbye reason.goodbyeBody .discard).2.traffic returned) :=
    peer.traffic_send _ _ _
  unfold requestGoodbye
  split <;> rename_i equal <;> rw [equal] at sends
  · rw [(changes_concludeExchange _ _ _ _).traffic_eq rfl]
    exact sends
  · dsimp only
    split
    · rw [(changes_concludeExchange _ _ _ _).traffic_eq rfl]
      exact sends
    · exact sends

theorem traffic_beginGoodbye (clock : Clock) (reason : DisconnectReason) (timeoutMs : Nat) :
    Traffic.Step (peer.traffic returned)
      ((peer.beginGoodbye clock reason timeoutMs).traffic returned) := by
  unfold beginGoodbye
  split
  · exact peer.traffic_requestGoodbye clock .outside reason timeoutMs
  · rw [traffic_note _ _ rfl]
    exact .stays

theorem traffic_beginFarewell (clock : Clock) (farewell : Farewell) (first : Bool) :
    Traffic.Step (peer.traffic returned)
      ((peer.beginFarewell clock farewell first).traffic returned) := by
  have concludes (later : Peer) (same : later.traffic returned = peer.traffic returned)
      (outcome : GoodbyeOutcome) :
      Traffic.Step (peer.traffic returned)
        ((later.concludeFarewell farewell outcome).traffic returned) := by
    rw [(changes_concludeFarewell _ _ _).traffic_eq rfl, same]
    exact .stays
  unfold beginFarewell
  split
  · split
    · exact concludes peer rfl .said
    · rename_i handler installed
      have asked : (peer.note (.goodbyeAsked handler farewell.reason)).traffic returned =
          peer.traffic returned := peer.traffic_note _ rfl
      dsimp only
      split
      · exact concludes _ asked _
      · rw [← asked]
        exact .stays
      · rw [← asked]
        exact traffic_requestGoodbye _ clock _ _ _
  · exact concludes peer rfl .said

end Goodbyes

/-! ## Every move is a step -/

section Moves

variable (peer : Peer) {returned : List Return}

theorem traffic_turn (clock : Clock) :
    Traffic.Step (peer.traffic returned)
      ((peer.move (.turn clock)).traffic (returned ++ (peer.return? (.turn clock)).toList)) := by
  cases line : peer.line with
  | nil =>
      rw [move_turn_of_nil line, return?, line, Option.toList_none, List.append_nil]
      exact .stays
  | cons turn rest =>
      rw [move_turn_of_cons line, return?, line]
      have popped (due : turn.due? = none) (told : turn.told? = none) :
          peer.traffic returned = { peer with line := rest }.traffic returned := by
        simp only [traffic, line, List.filterMap_cons, due, told]
      -- A turn that makes no call has no call return with it.
      have steps {later : Peer} (due : turn.due? = none) (told : turn.told? = none)
          (step : Traffic.Step ({ peer with line := rest }.traffic returned)
            (later.traffic returned)) :
          Traffic.Step (peer.traffic returned)
            (later.traffic (returned ++ (none : Option Return).toList)) := by
        rw [popped due told, Option.toList_none, List.append_nil]
        exact step
      have untouched {later : Peer} (due : turn.due? = none) (told : turn.told? = none)
          (same : later.traffic returned = { peer with line := rest }.traffic returned) :
          Traffic.Step (peer.traffic returned)
            (later.traffic (returned ++ (none : Option Return).toList)) :=
        steps due told (same ▸ .stays)
      cases turn with
      | call call => exact peer.traffic_makeCall line
      | callTold call outcome =>
          have told : (peer.traffic returned).told = (call, outcome) :: rest.filterMap Turn.told? := by
            simp [traffic, line, Turn.told?]
          have left : { peer with line := rest }.traffic returned =
              { peer.traffic returned with told := rest.filterMap Turn.told? } := by
            simp [traffic, line, List.filterMap_cons, Turn.due?]
          dsimp only [take]
          rw [Option.toList_none, List.append_nil, traffic_tellCall, left]
          exact .ends _ _ told
      | watch => exact untouched rfl rfl ((changes_watch _).traffic_eq rfl)
      | close => exact untouched rfl rfl ((changes_close _).traffic_eq rfl)
      | farewell farewell first =>
          exact steps rfl rfl (traffic_beginFarewell _ clock farewell first)
      | goodbyeTold farewell outcome =>
          exact untouched rfl rfl ((changes_concludeFarewell _ farewell outcome).traffic_eq rfl)
      | goodbye reason timeoutMs =>
          exact steps rfl rfl (traffic_beginGoodbye _ clock reason timeoutMs)
      | goodbyeDue exchange =>
          exact untouched rfl rfl ((changes_resumeExchange _ exchange).traffic_eq rfl)
      | identify inquirer =>
          exact untouched rfl rfl ((changes_identify _ inquirer).traffic_eq rfl)
      | identified held =>
          exact untouched rfl rfl ((changes_concludeIdentify _ _ _).traffic_eq rfl)

theorem traffic_move (move : Move) :
    Traffic.Step (peer.traffic returned)
      ((peer.move move).traffic (returned ++ (peer.return? move).toList)) := by
  have steps {later : Peer} (step : Traffic.Step (peer.traffic returned) (later.traffic returned)) :
      Traffic.Step (peer.traffic returned)
        (later.traffic (returned ++ (none : Option Return).toList)) := by
    rw [Option.toList_none, List.append_nil]
    exact step
  have untouched {later : Peer} (same : later.traffic returned = peer.traffic returned) :
      Traffic.Step (peer.traffic returned)
        (later.traffic (returned ++ (none : Option Return).toList)) :=
    steps (same ▸ .stays)
  cases move with
  | subscribe observer => exact untouched ((peer.changes_subscribe observer).traffic_eq rfl)
  | unsubscribe id => exact untouched rfl
  | disconnectImmediately record =>
      exact untouched ((peer.changes_disconnectImmediately record).traffic_eq rfl)
  | disconnectCleanly reason =>
      exact untouched ((peer.changes_disconnectCleanly reason).traffic_eq rfl)
  | adjust authority now adjustment =>
      exact untouched ((peer.changes_adjust authority now adjustment).traffic_eq rfl)
  | setHandler handler => exact untouched rfl
  | installGoodbye => exact untouched rfl
  | send method body sink => exact steps (peer.traffic_send method body sink)
  | checkIdentity => exact untouched (peer.changes_checkIdentity.traffic_eq rfl)
  | lookUpAgent => exact untouched ((peer.changes_enlist (.identify .caller)).traffic_eq rfl)
  | askGoodbye reason timeoutMs =>
      exact untouched ((peer.changes_enlist (.goodbye _ _)).traffic_eq rfl)
  | remoteClose => exact untouched (peer.changes_closeConnection.traffic_eq rfl)
  | prepareIdentify reply => exact untouched rfl
  | releaseIdentify => exact untouched (peer.changes_releaseIdentify.traffic_eq rfl)
  | tellCall start outcome => exact peer.traffic_tellOpenCall start outcome
  | tellGoodbye outcome => exact untouched ((peer.changes_tellGoodbye outcome).traffic_eq rfl)
  | cutStream method => exact untouched (peer.traffic_note _ rfl)
  | hold owned => exact untouched rfl
  | wake ticket => exact untouched ((peer.changes_wakeExchange ticket).traffic_eq rfl)
  | turn clock => exact peer.traffic_turn clock

theorem traffic_play (moves : List Move) :
    Traffic.Steps (peer.traffic returned)
      ((peer.play moves).traffic (returned ++ peer.returns moves)) := by
  induction moves generalizing peer returned with
  | nil =>
      rw [play_nil, returns, List.append_nil]
  | cons move rest inductionHypothesis =>
      have later : Traffic.Steps ((peer.move move).traffic (returned ++ (peer.return? move).toList))
        _ := inductionHypothesis (peer.move move)
      rw [List.append_assoc] at later
      exact Relation.ReflTransGen.head (peer.traffic_move move) later

end Moves

end PeerLink.Peer
