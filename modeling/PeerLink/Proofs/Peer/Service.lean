import PeerLink.Proofs.Peer.Answers
import PeerLink.Proofs.Rpc.Registration

/-!
Contract: whom the calls of a method go to.

The first delegate of a method serves it. Every other one is logged when the table is made and is not
heard of again.

Owns: that each call that is made goes to the first delegate of its method, over any traffic and over
any history of a peer.

Does not own: the order of the calls, and what becomes of them.
-/

namespace PeerLink.Peer

open Rpc (Table leftOut)

variable {slots : Nat} {delegates : List Rpc.Delegate}

/-- Every call that is made goes to the first delegate of its method. -/
theorem Traffic.delegate_of_made {traffic : Traffic}
    (reached : Traffic.Steps (.fresh (Table.ofDelegates slots delegates).2) traffic)
    {call : Rpc.Call} (made : call ∈ traffic.made) :
    delegates.find? (·.method == call.method) = some call.delegate := by
  have requested : call ∈ traffic.requestsTo call.method := by
    apply List.mem_append_left
    exact List.mem_filter.mpr ⟨List.mem_append_left _ made, beq_self_eq_true _⟩
  have serves := (reached.lawful (Traffic.lawful_fresh slots delegates)).numbered.own _ call requested
  rw [reached.delegateOf?_eq] at serves
  exact (Table.delegateOf?_ofDelegates slots delegates call.method).symm.trans serves

theorem delegate_of_called (settings : Settings) (address : PeerAddress) (publicKey : String)
    (dialled : Bool) (connection : Connection) (delegates : List Rpc.Delegate) (moves : List Move)
    {call : Rpc.Call}
    (called : .called call ∈
      ((create settings address publicKey dialled connection delegates).play moves).account) :
    delegates.find? (·.method == call.method) = some call.delegate := by
  let start := create settings address publicKey dialled connection delegates
  have reached : Traffic.Steps (start.traffic [])
      ((start.play moves).traffic (start.returns moves)) := start.traffic_play moves
  rw [show start.traffic [] = .fresh _ from traffic_create _ _ _ _ _ _] at reached
  exact Traffic.delegate_of_made reached (List.mem_filterMap.mpr ⟨_, called, rfl⟩)

/-- A table holds for each method the first delegate of the list that has it, behind a queue of its
own, and serves exactly the methods for which there is one. They are listed in ascending order of
declaration. Every delegate that stands behind another one of its method is logged once, in the order
of the list; and no call ever goes to it, whatever happens to the table, or to a peer that is made
with it. -/
theorem first_delegate_serves (slots : Nat) (delegates : List Rpc.Delegate) :
    let lines := (Table.ofDelegates slots delegates).1
    let table := (Table.ofDelegates slots delegates).2
    (∀ method, table.find? method =
        (delegates.find? (·.method == method)).map (Table.freshChannel slots)) ∧
      (∀ method, table.find? method = none ↔ ∀ delegate ∈ delegates, delegate.method ≠ method) ∧
      (∀ method, table.supports method = true ↔ ∃ channel, table.find? method = some channel) ∧
      (∀ method, method ∈ table.methods ↔ table.supports method = true) ∧
      table.methods.Pairwise (fun earlier later => earlier.position < later.position) ∧
      lines = (leftOut delegates).map Table.duplicateLine ∧
      (∀ traffic : Traffic, Traffic.Steps (.fresh table) traffic → ∀ call ∈ traffic.made,
        delegates.find? (·.method == call.method) = some call.delegate) ∧
      ∀ settings address publicKey dialled connection,
        settings.maxConcurrentRequests = slots →
        let start := create settings address publicKey dialled connection delegates
        start.account = lines.map .logged ∧
          ∀ moves call, .called call ∈ (start.play moves).account →
            delegates.find? (·.method == call.method) = some call.delegate := by
  intro lines table
  have found (method : Rpc.Method) : table.find? method =
      (delegates.find? (·.method == method)).map (Table.freshChannel slots) :=
    Table.find?_ofDelegates slots delegates method
  refine ⟨found, ?_, fun method => Option.isSome_iff_exists, table.mem_methods,
    table.methods_ascending, Table.lines_ofDelegates slots delegates,
    fun traffic reached call => Traffic.delegate_of_made reached, ?_⟩
  · intro method
    rw [found, Option.map_eq_none_iff, List.find?_eq_none]
    simp
  · rintro settings address publicKey dialled connection rfl
    refine ⟨rfl, fun moves call called => ?_⟩
    exact delegate_of_called settings address publicKey dialled connection delegates moves called

/-- Three delegates of one method stand among two of others, and two pings are sent. -/
theorem first_delegate_serves_spareDelegates :
    let delegates : List Rpc.Delegate :=
      [⟨.ping, .gated, "first"⟩, ⟨.metadata, .instant, "only"⟩, ⟨.ping, .instant, "second"⟩,
        ⟨.status, .instant, "last"⟩, ⟨.ping, .panics, "third"⟩]
    let moves : List Move := [.send .ping [1] (.send 0), .send .ping [2] (.send 1)] ++
      List.replicate 3 (.turn {})
    let peer := (create {} ⟨"peer", "/address"⟩ "key" true {} delegates).play moves
    (Table.ofDelegates 2 delegates).2.methods = [.status, .ping, .metadata] ∧
      leftOut delegates = [⟨.ping, .instant, "second"⟩, ⟨.ping, .panics, "third"⟩] ∧
      (Table.ofDelegates 2 delegates).1 = (leftOut delegates).map Table.duplicateLine ∧
      peer.account.countP (fun note => (Note.made? note).isSome) = 2 ∧
      ∀ call, .called call ∈ peer.account → delegates.find? (·.method == call.method) =
        some call.delegate := by
  obtain ⟨-, -, -, -, -, logged, -, called⟩ := first_delegate_serves 2
    [⟨.ping, .gated, "first"⟩, ⟨.metadata, .instant, "only"⟩, ⟨.ping, .instant, "second"⟩,
      ⟨.status, .instant, "last"⟩, ⟨.ping, .panics, "third"⟩]
  exact ⟨by decide, by decide, logged, by decide +kernel,
    (called {} ⟨"peer", "/address"⟩ "key" true {} rfl).2 _⟩

end PeerLink.Peer
