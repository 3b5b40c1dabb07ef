import Mathlib.Logic.Function.Iterate
import PeerLink.Proofs.Peer.Conversation

/-!
Contract: that requests for one method are not disturbed by requests for others.

All methods share one line of turns and one connection. A script of requests is played twice, once as
it is and once without what it does about other methods, and the two runs are compared step by step:
the lane of the method is the same in both, because it moves by itself.

Owns: what a script does in a lane, and the comparison of two runs.

Does not own: how a single move of a peer shows in its lanes.
-/

namespace PeerLink.Peer

variable {own : Rpc.Call → Option Rpc.CallOutcome} {method : Rpc.Method}

/-! ## What calls do by themselves -/

/-- The call that is made in a move. -/
def due? (peer : Peer) : Move → Option Rpc.Call
  | .turn _ => peer.line.head?.bind Turn.due?
  | _ => none

/-- Every call of a method that is made along a history returns what it returns by itself, or waits if
that is what it does by itself. -/
def Heeds (own : Rpc.Call → Option Rpc.CallOutcome) (method : Rpc.Method) : Peer → List Move → Prop
  | _, [] => True
  | peer, move :: rest =>
      (∀ call ∈ peer.due? move, call.method = method → peer.connection.return? call = own call) ∧
        Heeds own method (peer.move move) rest

instance decidableHeeds (own : Rpc.Call → Option Rpc.CallOutcome) (method : Rpc.Method) :
    ∀ peer moves, Decidable (Heeds own method peer moves)
  | _, [] => isTrue trivial
  | peer, move :: rest =>
      have := decidableHeeds own method (peer.move move) rest
      inferInstanceAs (Decidable (_ ∧ _))

theorem heeds_append {peer : Peer} {earlier later : List Move} :
    Heeds own method peer (earlier ++ later) ↔
      Heeds own method peer earlier ∧ Heeds own method (peer.play earlier) later := by
  induction earlier generalizing peer with
  | nil => exact (iff_of_eq (true_and _)).symm
  | cons move rest inductionHypothesis =>
      exact (and_congr_right fun _ => inductionHypothesis).trans and_assoc.symm

theorem Heeds.take {peer : Peer} {clock : Clock} {steps : List RpcStep}
    (heeds : Heeds own method peer (peer.movesOf clock steps)) (count : Nat) :
    Heeds own method peer (peer.movesOf clock (steps.take count)) := by
  rw [← List.take_append_drop count steps, movesOf_append] at heeds
  exact (heeds_append.mp heeds).1

/-! ## Lanes that come to rest -/

/-- One lane is what another comes to, if all its turns are taken. -/
def Lane.Settles (own : Rpc.Call → Option Rpc.CallOutcome) (before after : Lane) : Prop :=
  ∃ turns, (Lane.advance own)^[turns] before = after ∧ after.turns = []

namespace Lane

theorem advance_of_nil {lane : Lane} (idle : lane.turns = []) : lane.advance own = lane := by
  unfold advance
  rw [idle]

theorem iterate_of_le {lane : Lane} {turns more : Nat} (fewer : turns ≤ more)
    (idle : ((advance own)^[turns] lane).turns = []) :
    (advance own)^[more] lane = (advance own)^[turns] lane := by
  obtain ⟨further, rfl⟩ := Nat.exists_eq_add_of_le' fewer
  rw [Function.iterate_add_apply]
  exact Function.iterate_fixed (advance_of_nil idle) further

/-- However many turns are taken, the lane comes to the same. -/
theorem Settles.unique {before after other : Lane} (settles : before.Settles own after)
    (settlesOther : before.Settles own other) : after = other := by
  obtain ⟨turns, rfl, idle⟩ := settles
  obtain ⟨others, rfl, otherIdle⟩ := settlesOther
  rcases Nat.le_total turns others with fewer | fewer
  · exact (iterate_of_le fewer idle).symm
  · exact iterate_of_le fewer otherIdle

end Lane

/-! ## What a script does in a lane -/

/-- What an action does in a lane. -/
def RpcAction.apply (method : Rpc.Method) (lane : Lane) : RpcAction → Lane
  | send other body sink => if method = other then lane.accept body sink else lane
  | complete ticket outcome => if method = ticket.method then lane.hear ticket outcome else lane
  | wait => lane

/-- What a step makes of a lane. -/
def RpcStep.Leads (own : Rpc.Call → Option Rpc.CallOutcome) (method : Rpc.Method) (step : RpcStep)
    (before after : Lane) : Prop :=
  if step.settles then (step.action.apply method before).Settles own after
  else after = step.action.apply method before

namespace RpcStep

theorem Leads.unique {step : RpcStep} {before after other : Lane}
    (leads : step.Leads own method before after) (leadsOther : step.Leads own method before other) :
    after = other := by
  unfold Leads at leads leadsOther
  split at leads
  · rename_i settles
    rw [if_pos settles] at leadsOther
    exact leads.unique leadsOther
  · rename_i stays
    rw [if_neg stays] at leadsOther
    exact leads.trans leadsOther.symm

/-- What is erased did nothing in the lane of a method that is kept. -/
theorem leads_erase {erased : Rpc.Method → Bool} (kept : erased method = false) (step : RpcStep)
    {before after : Lane} :
    (step.erase erased).Leads own method before after ↔ step.Leads own method before after := by
  unfold erase
  split
  · rename_i isErased
    have nothing : step.action.apply method before = before := by
      cases action : step.action with
      | send other body sink =>
          rw [action] at isErased
          apply if_neg
          rintro rfl
          exact Bool.false_ne_true (kept.symm.trans isErased)
      | complete ticket outcome =>
          rw [action] at isErased
          apply if_neg
          rintro rfl
          exact Bool.false_ne_true (kept.symm.trans isErased)
      | wait => rfl
    unfold Leads
    rw [nothing]
    rfl
  · rfl

end RpcStep

/-! ## What a script does in the lane of a peer -/

section Scripts

variable {slots : Nat} {peer : Peer}

theorem lane_action (conversing : peer.Conversing slots) (action : RpcAction)
    (method : Rpc.Method) :
    (peer.play (action.moves peer)).lane method = action.apply method (peer.lane method) := by
  cases action with
  | send other body sink => exact peer.lane_send other body sink method
  | complete ticket outcome =>
      cases waits : peer.waitingFor? ticket with
      | none =>
          have quiet : peer.play ((RpcAction.complete ticket outcome).moves peer) = peer := by
            simp only [RpcAction.moves, waits, Option.map_none, Option.toList_none, play_nil]
          rw [quiet, RpcAction.apply]
          split
          · rename_i same
            subst same
            exact (hear_of_unknown waits outcome).symm
          · rfl
      | some waiting =>
          have told : peer.play ((RpcAction.complete ticket outcome).moves peer) =
              (peer.tellOpenCall waiting.start outcome).2 := by
            simp only [RpcAction.moves, waits, Option.map_some, Option.toList_some, play_cons,
              play_nil, Peer.move]
          rw [told]
          exact lane_tellOpenCall conversing.distinct waits outcome method
  | wait => rfl

/-- Along turns a lane takes some of its own. -/
theorem lane_turns (conversing : peer.Conversing slots) (clock : Clock) {turns : Nat}
    (heeds : Heeds own method peer (List.replicate turns (.turn clock))) :
    ∃ taken, (Lane.advance own)^[taken] (peer.lane method) =
      (peer.play (List.replicate turns (.turn clock))).lane method := by
  induction turns generalizing peer with
  | zero => exact ⟨0, rfl⟩
  | succ turns inductionHypothesis =>
      obtain ⟨first, later⟩ := heeds
      obtain ⟨taken, reaches⟩ := inductionHypothesis (conversing.move rfl) later
      have heedsNow : ∀ call rest, peer.line = .call call :: rest → call.method = method →
          peer.connection.return? call = own call := by
        intro call rest line
        apply first call
        rw [due?, line]
        rfl
      rw [List.replicate_succ, play_cons, ← reaches]
      rcases lane_turn conversing.sound conversing.plain.turns conversing.plain.nobody heedsNow clock
        with stays | advances
      · exact ⟨taken, by rw [stays]⟩
      · exact ⟨taken + 1, by rw [Function.iterate_succ_apply, advances]⟩

theorem lane_settles (conversing : peer.Conversing slots) (clock : Clock)
    (heeds : Heeds own method peer (List.replicate peer.work (.turn clock))) :
    (peer.lane method).Settles own
      ((peer.play (List.replicate peer.work (.turn clock))).lane method) := by
  obtain ⟨taken, reaches⟩ := lane_turns conversing clock heeds
  refine ⟨taken, reaches, ?_⟩
  have idle := line_nil_of_turns conversing.fit clock (Nat.le_refl peer.work)
  simp only [lane, idle, List.filter_nil]

theorem lane_step (conversing : peer.Conversing slots) (clock : Clock) (step : RpcStep)
    (heeds : Heeds own method peer (step.moves clock peer)) :
    step.Leads own method (peer.lane method) ((peer.play (step.moves clock peer)).lane method) := by
  have acted := lane_action conversing step.action method
  unfold RpcStep.Leads
  unfold RpcStep.moves at heeds ⊢
  dsimp only at heeds ⊢
  rw [play_append, ← acted]
  split
  · rename_i settles
    rw [if_pos settles] at heeds
    apply lane_settles
    · exact conversing.play step.action.isRpc_moves
    · exact (heeds_append.mp heeds).2
  · rfl

/-- Two peers whose lanes of a method are alike follow a script, one of them only what the script does
about methods that are kept. -/
theorem lane_follow_erase {other : Peer} {otherSlots : Nat} {erased : Rpc.Method → Bool}
    (kept : erased method = false) (conversing : peer.Conversing slots)
    (otherConversing : other.Conversing otherSlots) (alike : peer.lane method = other.lane method)
    (clock : Clock) (steps : List RpcStep)
    (heeds : Heeds own method peer (peer.movesOf clock steps))
    (otherHeeds : Heeds own method other (other.movesOf clock (steps.map (.erase erased)))) :
    (peer.follow clock steps).lane method =
      (other.follow clock (steps.map (.erase erased))).lane method := by
  induction steps generalizing peer other with
  | nil => exact alike
  | cons step rest inductionHypothesis =>
      obtain ⟨now, later⟩ := heeds_append.mp heeds
      obtain ⟨otherNow, otherLater⟩ := heeds_append.mp otherHeeds
      have leads := lane_step conversing clock step now
      have otherLeads := lane_step otherConversing clock (step.erase erased) otherNow
      rw [RpcStep.leads_erase kept, ← alike] at otherLeads
      rw [List.map_cons, follow_cons, follow_cons]
      apply inductionHypothesis
      · exact conversing.play (step.isRpc_moves clock)
      · exact otherConversing.play ((step.erase erased).isRpc_moves clock)
      · exact leads.unique otherLeads
      · exact later
      · exact otherLater

/-- With nothing prepared for streams, what every call returns is fixed beforehand. -/
theorem heeds_of_unprepared (conversing : peer.Conversing slots)
    (unprepared : peer.connection.streamReplies = []) (method : Rpc.Method) {moves : List Move}
    (areRpc : ∀ move ∈ moves, move.isRpc = true) :
    Heeds peer.connection.return? method peer moves := by
  induction moves generalizing peer with
  | nil => trivial
  | cons move rest inductionHypothesis =>
      have isRpc := areRpc move List.mem_cons_self
      have same := conversing.plain.connection_move unprepared isRpc
      refine ⟨fun _ _ _ => rfl, ?_⟩
      rw [← same]
      apply inductionHypothesis (conversing.move isRpc)
      · rw [same]
        exact unprepared
      · intro other member
        exact areRpc other (List.mem_cons_of_mem _ member)

end Scripts

/-! ## What two peers have in common -/

/-- As far as the requests for a method go, nothing tells two peers apart: as many calls are in flight,
the same ones wait for a slot, the same ones were made in the same order, and the same results have
arrived in the same order. -/
structure AlikeFor (method : Rpc.Method) (peer other : Peer) : Prop where
  taken : peer.table.takenOf method = other.table.takenOf method
  waiting : peer.table.pendingOf method = other.table.pendingOf method
  made : peer.callsTo method = other.callsTo method
  arrived : peer.results.filter (·.1.method == method) =
    other.results.filter (·.1.method == method)
  results : ∀ index, peer.result? ⟨method, index⟩ = other.result? ⟨method, index⟩

theorem lookup_of_arrived (results : List (Rpc.Ticket × Rpc.CallResult)) (ticket : Rpc.Ticket) :
    (results.filter (·.1.method == ticket.method)).lookup ticket = results.lookup ticket := by
  induction results with
  | nil => rfl
  | cons entry rest inductionHypothesis =>
      obtain ⟨other, result⟩ := entry
      by_cases same : ticket = other
      · subst same
        simp
      · have passes := beq_false_of_ne same
        rw [List.lookup_cons, passes, List.filter_cons, ← inductionHypothesis]
        split
        · rw [List.lookup_cons, passes]
        · rfl

theorem alikeFor_of_lane {peer other : Peer} (same : peer.lane method = other.lane method) :
    AlikeFor method peer other := by
  have channel : peer.table.find? method = other.table.find? method :=
    congrArg Lane.channel same
  have arrived : peer.results.filter (·.1.method == method) =
      other.results.filter (·.1.method == method) := congrArg Lane.results same
  refine ⟨?_, ?_, congrArg Lane.made same, arrived, ?_⟩
  · rw [Rpc.Table.takenOf, Rpc.Table.takenOf, channel]
  · rw [Rpc.Table.pendingOf, Rpc.Table.pendingOf, channel]
  · intro index
    have found := lookup_of_arrived peer.results ⟨method, index⟩
    have otherFound := lookup_of_arrived other.results ⟨method, index⟩
    rw [result?, result?, ← found, ← otherFound]
    exact congrArg (List.lookup _) arrived

/-! ## Two runs -/

section Runs

variable (settings : Settings) (address : PeerAddress) (publicKey : String) (dialled : Bool)
  (connection : Connection) (delegates : List Rpc.Delegate) (clock : Clock)

/-- Over a connection with nothing prepared for streams, a method is undisturbed whatever is done about
others, such as requests that never finish. -/
theorem undisturbed_of_unprepared (unprepared : connection.streamReplies = [])
    {method : Rpc.Method} {erased : Rpc.Method → Bool} (kept : erased method = false)
    (steps : List RpcStep) :
    let start := create settings address publicKey dialled connection delegates
    AlikeFor method (start.follow clock steps) (start.follow clock (steps.map (.erase erased))) := by
  intro start
  have conversing := conversing_create settings address publicKey dialled connection delegates
  apply alikeFor_of_lane
  apply lane_follow_erase kept conversing conversing rfl
  · exact heeds_of_unprepared conversing unprepared method (isRpc_movesOf clock steps)
  · exact heeds_of_unprepared conversing unprepared method (isRpc_movesOf clock _)

/-- Requests for a method are not disturbed by requests for others. After every step of a script, the
requests for the method stand as if what the script does about erased methods had never been done,
provided that the calls of the method return the same by themselves with and without it: the connection
gives out its faults in the order in which streams are asked for, so that the run without the erased
requests may need another connection. -/
theorem method_undisturbed (otherConnection : Connection) {own : Rpc.Call → Option Rpc.CallOutcome}
    {method : Rpc.Method} {erased : Rpc.Method → Bool} (kept : erased method = false)
    (steps : List RpcStep)
    (heeds :
      let start := create settings address publicKey dialled connection delegates
      Heeds own method start (start.movesOf clock steps))
    (otherHeeds :
      let start := create settings address publicKey dialled otherConnection delegates
      Heeds own method start (start.movesOf clock (steps.map (.erase erased))))
    (count : Nat) :
    AlikeFor method
      ((create settings address publicKey dialled connection delegates).follow clock
        (steps.take count))
      ((create settings address publicKey dialled otherConnection delegates).follow clock
        ((steps.take count).map (.erase erased))) := by
  apply alikeFor_of_lane
  apply lane_follow_erase kept
  · exact conversing_create settings address publicKey dialled connection delegates
  · exact conversing_create settings address publicKey dialled otherConnection delegates
  · rfl
  · exact heeds.take count
  · rw [List.map_take]
    exact otherHeeds.take count

end Runs

/-- With one slot for each method, a ping finds no stream and hands its slot on while a status request
is under way; then a status request panics, and both methods hand their slots on before the peer
rests. -/
def crossedPings : List RpcStep :=
  [⟨.send .status [1] (.send 0), false⟩, ⟨.send .ping [2] (.send 1), false⟩,
    ⟨.send .status [3] (.send 2), false⟩, ⟨.send .ping [4] (.send 3), true⟩,
    ⟨.complete ⟨.status, 0⟩ .panicked, false⟩, ⟨.send .ping [5] (.send 4), false⟩,
    ⟨.complete ⟨.ping, 1⟩ (.answered [[6]]), true⟩]

/-- The first ping finds no stream, and the others wait for the remote side. -/
def firstPingFails (call : Rpc.Call) : Option Rpc.CallOutcome :=
  if call.index = 0 then some (.failed (.transport (.io "reset"))) else none

theorem method_undisturbed_crossedPings :
    let settings : Settings := { maxConcurrentRequests := 1 }
    let delegates : List Rpc.Delegate := [⟨.ping, .gated, "pings"⟩, ⟨.status, .gated, "statuses"⟩]
    let start := create settings ⟨"peer", "/address"⟩ "key" true
      { streamReplies := [none, some (.io "reset"), none, some (.io "refused")] } delegates
    let bare := create settings ⟨"peer", "/address"⟩ "key" true
      { streamReplies := [some (.io "reset")] } delegates
    let pingsOnly := crossedPings.map (.erase (· == .status))
    let peer := start.follow {} crossedPings
    Heeds firstPingFails .ping start (start.movesOf {} crossedPings) ∧
      Heeds firstPingFails .ping bare (bare.movesOf {} pingsOnly) ∧
      (∀ count, AlikeFor .ping (start.follow {} (crossedPings.take count))
        (bare.follow {} ((crossedPings.take count).map (.erase (· == .status))))) ∧
      peer.result? ⟨.status, 0⟩ = some (.failed .aborted) ∧
      (bare.follow {} pingsOnly).result? ⟨.status, 0⟩ = none ∧
      (peer.callsTo .ping).map Rpc.Call.body = [[2], [4], [5]] ∧
      peer.result? ⟨.ping, 1⟩ = some .completed := by
  intro settings delegates start bare pingsOnly peer
  have heeds : Heeds firstPingFails .ping start (start.movesOf {} crossedPings) := by
    decide +kernel
  have otherHeeds : Heeds firstPingFails .ping bare (bare.movesOf {} pingsOnly) := by
    decide +kernel
  refine ⟨heeds, otherHeeds, ?_, by decide +kernel, by decide +kernel, by decide +kernel,
    by decide +kernel⟩
  exact method_undisturbed settings ⟨"peer", "/address"⟩ "key" true _ delegates {} _ rfl crossedPings
    heeds otherHeeds

end PeerLink.Peer
