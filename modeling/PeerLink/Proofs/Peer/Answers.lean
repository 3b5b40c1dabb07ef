import Mathlib.Data.List.Nodup
import PeerLink.Proofs.Node.Belongings
import PeerLink.Proofs.Peer.Requests

/-!
Contract: that every accepted request is answered by its own call.

A request for a method without a delegate is refused and changes nothing. Every other is called in its
turn, once, with its own payload and sink; and what its sender learns is what that call returned.

Owns: the requests over a peer by method, what calls returned in the course of a history, and what
the laws of the traffic say about both.

Does not own: the laws.
-/

namespace PeerLink.Peer

/-- The calls of the delegate of a method, in the order in which they were made. -/
def callsTo (peer : Peer) (method : Rpc.Method) : List Rpc.Call :=
  (peer.account.filterMap Note.made?).filter (·.method == method)

/-- The accepted requests for a method, in the order in which they were accepted: those whose call was
made, those that stand in the line, and those that wait for a slot. -/
def requestsTo (peer : Peer) (method : Rpc.Method) : List Rpc.Call :=
  peer.callsTo method ++ (peer.line.filterMap Turn.due?).filter (·.method == method) ++
    peer.table.pendingOf method

/-- The calls of a method that wait for the remote side. -/
def openTo (peer : Peer) (method : Rpc.Method) : List OpenCall :=
  peer.openCalls.filter (·.call.method == method)

/-- What a call returned in the course of a history. -/
def returnsOf (start : Peer) (history : List Move) (call : Rpc.Call) : List Rpc.CallOutcome :=
  ((start.returns history).filter (·.1 == call)).map Prod.snd

/-- What becomes of a request in the course of a history: its call is made at most once and returns at
most once, and its sender learns what that call returned and nothing else. -/
structure Answered (start : Peer) (history : List Move) (call : Rpc.Call) : Prop where
  calledOnce : ((start.play history).callsTo call.method).count call ≤ 1
  returnsOnce : (start.returnsOf history call).length ≤ 1
  resolves : ∀ result, (start.play history).result? call.ticket = some result →
    call ∈ (start.play history).callsTo call.method ∧
      ∃ outcome, start.returnsOf history call = [outcome] ∧ outcome.result = result
  settles : (start.play history).line = [] → (start.play history).result? call.ticket =
    (start.returnsOf history call).head?.map Rpc.CallOutcome.result

theorem requestsTo_traffic (peer : Peer) (returned : List Return) (method : Rpc.Method) :
    (peer.traffic returned).requestsTo method = peer.requestsTo method := by
  simp only [Traffic.requestsTo, traffic, requestsTo, callsTo, List.filter_append]

theorem calledInOrder (peer : Peer) (method : Rpc.Method) :
    peer.callsTo method <+: peer.requestsTo method := by
  unfold requestsTo
  rw [List.append_assoc]
  exact List.prefix_append _ _

/-! ## Histories -/

theorem traffic_create (settings : Settings) (address : PeerAddress) (publicKey : String)
    (dialled : Bool) (connection : Connection) (delegates : List Rpc.Delegate) :
    (create settings address publicKey dialled connection delegates).traffic [] =
      .fresh (Rpc.Table.ofDelegates settings.maxConcurrentRequests delegates).2 := by
  simp only [create, traffic, List.filterMap_map, Function.comp_def, Note.made?, Turn.due?,
    Turn.told?, List.filterMap_none, List.filterMap_cons, List.filterMap_nil, Traffic.fresh]

theorem length_returnsOf (start : Peer) (history : List Move) (call : Rpc.Call) :
    (start.returnsOf history call).length = ((start.returns history).map Prod.fst).count call := by
  unfold returnsOf
  rw [List.length_map, List.count, List.countP_map, List.countP_eq_length_filter]
  rfl

theorem mem_returnsOf {start : Peer} {history : List Move} {call : Rpc.Call}
    {outcome : Rpc.CallOutcome} :
    outcome ∈ start.returnsOf history call ↔ (call, outcome) ∈ start.returns history := by
  simp [returnsOf]

section Histories

variable {start : Peer} {history : List Move} {slots : Nat}
  (lawful : ((start.play history).traffic (start.returns history)).Lawful slots)

include lawful

/-- Requests for a method are told apart by their numbers. -/
theorem eq_of_index {method : Rpc.Method} {call other : Rpc.Call}
    (accepted : call ∈ (start.play history).requestsTo method)
    (otherAccepted : other ∈ (start.play history).requestsTo method)
    (same : call.index = other.index) : call = other := by
  have numbers := lawful.numbered.numbers method
  rw [requestsTo_traffic] at numbers
  have distinct : (((start.play history).requestsTo method).map Rpc.Call.index).Nodup := by
    rw [numbers]
    exact List.nodup_range
  exact List.inj_on_of_nodup_map distinct accepted otherAccepted same

theorem method_of_requestsTo {method : Rpc.Method} {call : Rpc.Call}
    (accepted : call ∈ (start.play history).requestsTo method) : call.method = method := by
  rw [← requestsTo_traffic _ (start.returns history)] at accepted
  exact Rpc.Table.method_of_delegateOf? (lawful.numbered.own method call accepted)

theorem calledOnce (method : Rpc.Method) (call : Rpc.Call) :
    ((start.play history).callsTo method).count call ≤ 1 := by
  have numbers := lawful.numbered.numbers method
  rw [requestsTo_traffic] at numbers
  have distinct : ((start.play history).requestsTo method).Nodup := by
    apply List.Nodup.of_map Rpc.Call.index
    rw [numbers]
    exact List.nodup_range
  have called := distinct.sublist (calledInOrder _ method).sublist
  exact List.nodup_iff_count_le_one.mp called call

theorem returnsOnce (call : Rpc.Call) : (start.returnsOf history call).length ≤ 1 := by
  have conserved := lawful.conserved.calls.count_eq call
  rw [List.count_append] at conserved
  have once := calledOnce lawful call.method call
  unfold callsTo at once
  rw [List.count_filter (by simp)] at once
  rw [length_returnsOf]
  exact Nat.le_trans (Nat.le_add_right _ _) (conserved ▸ once)

/-- A call that returned was made. -/
theorem called_of_returned {returned : Return} (member : returned ∈ start.returns history) :
    returned.1 ∈ (start.play history).callsTo returned.1.method := by
  have made := lawful.conserved.calls.mem_iff.mpr
    (List.mem_append_left _ (List.mem_map_of_mem member))
  exact List.mem_filter.mpr ⟨made, beq_self_eq_true _⟩

/-- What can be seen under the ticket of a request was returned by its own call. -/
theorem resolves {method : Rpc.Method} {call : Rpc.Call}
    (accepted : call ∈ (start.play history).requestsTo method) {result : Rpc.CallResult}
    (found : (start.play history).result? call.ticket = some result) :
    call ∈ (start.play history).callsTo call.method ∧
      ∃ outcome, start.returnsOf history call = [outcome] ∧ outcome.result = result := by
  have delivered : (call.ticket, result) ∈ (start.play history).results := by
    obtain ⟨earlier, later, split, -⟩ := List.lookup_eq_some_iff.mp found
    rw [split]
    exact List.mem_append_right _ List.mem_cons_self
  obtain ⟨⟨other, outcome⟩, returned, delivery⟩ := List.mem_map.mp
    (lawful.conserved.results.mem_iff.mpr (List.mem_append_left _ delivered))
  obtain ⟨ticket, rfl⟩ := Prod.mk.inj delivery
  have called := called_of_returned lawful returned
  obtain ⟨sameMethod, sameIndex⟩ := Rpc.Ticket.mk.inj ticket
  -- The call that returned it is a request for the same method with the same number.
  have isCall : other = call := by
    have otherAccepted := (calledInOrder _ _).subset called
    have callMethod := method_of_requestsTo lawful accepted
    rw [show other.method = method from sameMethod.trans callMethod] at otherAccepted
    exact eq_of_index lawful otherAccepted accepted sameIndex
  subst isCall
  have returns := mem_returnsOf.mpr returned
  obtain ⟨only, isOnly⟩ := List.length_eq_one_iff.mp
    (Nat.le_antisymm (returnsOnce lawful other) (List.length_pos_of_mem returns))
  rw [isOnly] at returns
  exact ⟨called, outcome, by rw [isOnly, List.mem_singleton.mp returns], rfl⟩

theorem settles {method : Rpc.Method} {call : Rpc.Call}
    (accepted : call ∈ (start.play history).requestsTo method)
    (atRest : (start.play history).line = []) :
    (start.play history).result? call.ticket =
      (start.returnsOf history call).head?.map Rpc.CallOutcome.result := by
  cases found : (start.play history).result? call.ticket with
  | some result =>
      obtain ⟨-, outcome, returns, rfl⟩ := resolves lawful accepted found
      rw [returns]
      rfl
  | none =>
      cases returns : start.returnsOf history call with
      | nil => rfl
      | cons outcome rest =>
          -- Nothing that was returned is still to be delivered.
          have returned := mem_returnsOf.mp (returns ▸ List.mem_cons_self)
          have delivered := lawful.conserved.results.mem_iff.mp
            (List.mem_map_of_mem (f := Return.delivery) returned)
          simp only [traffic, atRest, List.filterMap_nil, List.map_nil, List.append_nil] at delivered
          have missing := List.lookup_eq_none_iff.mp found _ delivered
          simp [Return.delivery] at missing

theorem answered {method : Rpc.Method} {call : Rpc.Call}
    (accepted : call ∈ (start.play history).requestsTo method) : start.Answered history call where
  calledOnce := calledOnce lawful call.method call
  returnsOnce := returnsOnce lawful call
  resolves := fun _ found => resolves lawful accepted found
  settles := settles lawful accepted

/-- A request that is not called when the peer is at rest waits behind calls that hold every slot. -/
theorem called_of_rest (method : Rpc.Method) (atRest : (start.play history).line = []) :
    (start.play history).callsTo method = (start.play history).requestsTo method ∨
      ((start.play history).openTo method).length = slots := by
  by_cases waits : (start.play history).table.pendingOf method = []
  · left
    simp [requestsTo, atRest, waits]
  · right
    have taken := lawful.sound.takenOf_eq waits
    have held := lawful.slotted method
    simp only [Traffic.holders, traffic, atRest, List.filterMap_nil, List.map_nil, List.nil_append,
      List.countP_map] at held
    rw [openTo, ← List.countP_eq_length_filter, ← taken]
    exact held.symm

end Histories

/-! ## Requests from outside -/

/-- A request for a method with a delegate takes the next place among the requests for it. -/
theorem requestsTo_send {peer : Peer} {returned : List Return} {slots : Nat}
    (lawful : (peer.traffic returned).Lawful slots) {method : Rpc.Method} {delegate : Rpc.Delegate}
    (serves : peer.table.delegateOf? method = some delegate) (body : Rpc.Bytes)
    (sink : Rpc.ResponseSink) :
    (peer.send method body sink).1 = some ⟨method, (peer.requestsTo method).length⟩ ∧
      (peer.send method body sink).2.requestsTo method = peer.requestsTo method ++
        [⟨delegate, (peer.requestsTo method).length, body, sink⟩] := by
  have counted : peer.table.acceptedOf method = (peer.requestsTo method).length := by
    have numbers := congrArg List.length (lawful.numbered.numbers method)
    rw [requestsTo_traffic, List.length_map, List.length_range] at numbers
    exact numbers.symm
  cases accepts : peer.table.accept? method body sink with
  | none =>
      rw [Rpc.Table.accept?_eq_none_iff.mp accepts] at serves
      cases serves
  | some accepted =>
      obtain ⟨other, otherServes, appended⟩ := Traffic.requestsTo_accept lawful.sound accepts
      obtain rfl := Option.some.inj (otherServes.symm.trans serves)
      have requests := appended method
      rw [← traffic_of_accepts peer accepts, requestsTo_traffic, requestsTo_traffic, if_pos rfl]
        at requests
      refine ⟨?_, counted ▸ requests⟩
      rw [← counted, ← Rpc.Table.ticket_accept? accepts]
      simp only [send, accepts]

/-- Whatever the delegates of a peer and whatever happens to it, a request for a method without a
delegate is refused and changes nothing. Every other request takes the next place among the requests
for its method and keeps it. Their calls are made in this order, each with its own payload and sink,
and at rest a call that was not made waits behind calls that hold every slot. What the sender of a
request learns is what its own call returned; giving up waiting for it makes no difference. -/
theorem requests_answered (settings : Settings) (address : PeerAddress) (publicKey : String)
    (dialled : Bool) (connection : Connection) (delegates : List Rpc.Delegate) (moves : List Move)
    (method : Rpc.Method) :
    let start := create settings address publicKey dialled connection delegates
    let peer := start.play moves
    let requests := peer.requestsTo method
    match delegates.find? (·.method == method) with
    | none =>
        (∀ body sink, peer.send method body sink = (none, peer)) ∧
          ∀ (session : Session) (place : Nat), session.node.peers[place]? = some peer →
            ∀ body kept,
              (session.send place method body kept).1 = .refused (.unknownMethod method) ∧
                (session.send place method body kept).2.node = session.node
    | some delegate =>
        (∀ body sink,
          (peer.send method body sink).1 = some ⟨method, requests.length⟩ ∧
            (peer.send method body sink).2.requestsTo method =
              requests ++ [⟨delegate, requests.length, body, sink⟩]) ∧
          (∀ later, requests <+: (peer.play later).requestsTo method) ∧
          peer.callsTo method <+: requests ∧
          (peer.line = [] → peer.callsTo method = requests ∨
            (peer.openTo method).length = max 1 settings.maxConcurrentRequests) ∧
          (∀ call ∈ requests, call.delegate = delegate ∧ start.Answered moves call) ∧
          ∀ (session : Session) (place number : Nat),
            (session.dropSend place number).2.node = session.node ∧
              (∀ body, (session.send place method body false).2.node =
                (session.send place method body true).2.node) ∧
              ∀ call ∈ requests,
                (session.belongingsAt place).sends[number]? = some (.pending call.ticket) →
                ((session.collect place peer).2.2.belongingsAt place).sends[number]? =
                  some ((peer.result? call.ticket).elim (.pending call.ticket)
                    (.resolved method)) := by
  intro start peer requests
  have isFresh : start.traffic [] = .fresh _ := traffic_create _ _ _ _ _ _
  have reached : Traffic.Steps (start.traffic []) (peer.traffic (start.returns moves)) :=
    start.traffic_play moves
  rw [isFresh] at reached
  have lawful : (peer.traffic (start.returns moves)).Lawful
      (max 1 settings.maxConcurrentRequests) :=
    reached.lawful (Traffic.lawful_fresh _ delegates)
  have serves : peer.table.delegateOf? method = delegates.find? (·.method == method) :=
    (reached.delegateOf?_eq method).trans (Rpc.Table.delegateOf?_ofDelegates _ delegates method)
  cases found : delegates.find? (·.method == method) with
  | none =>
      rw [found] at serves
      have refuses (body : Rpc.Bytes) (sink : Rpc.ResponseSink) :
          peer.send method body sink = (none, peer) := by
        simp only [send, Rpc.Table.accept?_eq_none_iff.mpr serves]
      exact ⟨refuses, fun session place there => session.send_of_refused place refuses there⟩
  | some delegate =>
      rw [found] at serves
      refine ⟨requestsTo_send lawful serves, ?_, calledInOrder peer method,
        called_of_rest lawful method, ?_, ?_⟩
      · intro later
        have goesOn : Traffic.Steps (peer.traffic (start.returns moves)) _ := peer.traffic_play later
        have kept := goesOn.keepsRequests lawful method
        rw [requestsTo_traffic, requestsTo_traffic] at kept
        exact kept
      · intro call accepted
        have own := lawful.numbered.own method call
        rw [requestsTo_traffic] at own
        exact ⟨Option.some.inj ((own accepted).symm.trans serves), answered lawful accepted⟩
      · intro session place number
        refine ⟨session.node_dropSend place number,
          fun body => session.node_send place method body false true, ?_⟩
        intro call accepted waits
        rw [session.sends_collect place peer waits, ← method_of_requestsTo lawful accepted]
        rfl

/-- Two slots for three requests: the second call panics while the first waits for the remote side,
and the third is made when the connection has closed. -/
def overtakenCall : List Move :=
  [.send .ping [1] (.send 0), .send .ping [2] (.send 1), .send .ping [3] (.send 2)] ++
    List.replicate 3 (.turn {}) ++ [.disconnectImmediately ⟨none, true⟩, .tellCall 1 .panicked] ++
    List.replicate 5 (.turn {})

theorem requests_answered_overtakenCall :
    let start := create { maxConcurrentRequests := 2 } ⟨"peer", "/address"⟩ "key" true {}
      [⟨.ping, .gated, "pings"⟩]
    let peer := start.play overtakenCall
    peer.line = [] ∧ (peer.callsTo .ping).map Rpc.Call.body = [[1], [2], [3]] ∧
      peer.result? ⟨.ping, 0⟩ = none ∧
      peer.result? ⟨.ping, 1⟩ = some (.failed .aborted) ∧
      peer.result? ⟨.ping, 2⟩ = some (.failed (.transport .connectionClosed)) ∧
      ∀ call ∈ peer.requestsTo .ping, start.Answered overtakenCall call := by
  obtain ⟨-, -, -, -, answers, -⟩ := requests_answered { maxConcurrentRequests := 2 }
    ⟨"peer", "/address"⟩ "key" true {} [⟨.ping, .gated, "pings"⟩] overtakenCall .ping
  refine ⟨by decide +kernel, by decide +kernel, by decide +kernel, by decide +kernel,
    by decide +kernel, fun call accepted => (answers call accepted).2⟩

end PeerLink.Peer
