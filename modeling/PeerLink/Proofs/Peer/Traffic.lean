import Mathlib.Data.List.Perm.Basic
import Mathlib.Logic.Relation
import PeerLink.Proofs.Keyed
import PeerLink.Proofs.Peer.Moves
import PeerLink.Proofs.Rpc.Channels

/-!
Contract: the traffic of a peer, and the steps in which it changes.

The traffic is the part of a peer that its requests consist of. An accepted request waits in the queue
of its method until it is given a slot, stands in the line until its call is made, and may then wait
for the remote side. A call returns once; after that it ends, which passes its slot on and delivers
its result.

Owns: the traffic, its steps, and what holds of it at all times.

Does not own: the proof that every move is such a step.
-/

namespace PeerLink.Peer

def Note.made? : Note → Option Rpc.Call
  | called call => some call
  | _ => none

/-- The call that is made in a turn. -/
def Turn.due? : Turn → Option Rpc.Call
  | .call due => some due
  | _ => none

/-- The call that ends in a turn, with what it returned. -/
def Turn.told? : Turn → Option (Rpc.Call × Rpc.CallOutcome)
  | callTold told outcome => some (told, outcome)
  | _ => none

/-- A call with what it returned. -/
abbrev Return := Rpc.Call × Rpc.CallOutcome

/-- What the sender of a request learns when its call has returned. -/
def Return.delivery (returned : Return) : Rpc.Ticket × Rpc.CallResult :=
  (returned.1.ticket, returned.2.result)

structure Traffic where
  table : Rpc.Table
  /-- The calls that were made, in order. -/
  made : List Rpc.Call
  /-- The calls that have a slot and were not made yet. -/
  due : List Rpc.Call
  openCalls : List OpenCall
  /-- How many calls got their stream open. -/
  starts : Nat
  /-- The calls that returned. -/
  returned : List Return
  /-- The calls that returned and have not ended. -/
  told : List Return
  results : List (Rpc.Ticket × Rpc.CallResult)

/-- The traffic of a peer, given the calls that returned. -/
def traffic (peer : Peer) (returned : List Return) : Traffic where
  table := peer.table
  made := peer.account.filterMap Note.made?
  due := peer.line.filterMap Turn.due?
  openCalls := peer.openCalls
  starts := peer.starts
  returned := returned
  told := peer.line.filterMap Turn.told?
  results := peer.results

namespace Traffic

/-- A request is accepted. -/
def accept (before : Traffic) (accepted : Rpc.Table.Accepted) : Traffic :=
  { before with
    table := accepted.table
    due := before.due ++ accepted.started.toList }

/-- The next call of the line is made. -/
def make (before : Traffic) (call : Rpc.Call) (rest : List Rpc.Call) : Traffic :=
  { before with made := before.made ++ [call], due := rest }

/-- A call that was made waits for the remote side. -/
def wait (before : Traffic) (call : Rpc.Call) : Traffic :=
  { before with
    openCalls := before.openCalls ++ [⟨before.starts, call⟩]
    starts := before.starts + 1 }

/-- A call that was made returns, with so many streams opened by then. -/
def note (before : Traffic) (returned : Return) (starts : Nat) : Traffic :=
  { before with returned := before.returned ++ [returned], starts := starts }

/-- The remote side deals with a call that waits, which returns. -/
def hear (before : Traffic) (waiting : OpenCall) (outcome : Rpc.CallOutcome) : Traffic :=
  { before with
    openCalls := before.openCalls.filter (·.start != waiting.start)
    returned := before.returned ++ [(waiting.call, outcome)]
    told := before.told ++ [(waiting.call, outcome)] }

/-- A call ends: its slot passes on, and what it returned is delivered. -/
def conclude (before : Traffic) (returned : Return) : Traffic :=
  { before with
    table := (before.table.release returned.1.method).2
    due := before.due ++ (before.table.release returned.1.method).1.toList
    results := before.results ++ [returned.delivery] }

/-- A way in which the traffic changes. -/
inductive Step (before : Traffic) : Traffic → Prop where
  | stays : Step before before
  | accepts (method : Rpc.Method) (body : Rpc.Bytes) (sink : Rpc.ResponseSink)
      (accepted : Rpc.Table.Accepted)
      (accepts : before.table.accept? method body sink = some accepted) :
      Step before (before.accept accepted)
  | opens (call : Rpc.Call) (rest : List Rpc.Call) (due : before.due = call :: rest) :
      Step before ((before.make call rest).wait call)
  /-- A call is made, returns and ends. -/
  | returns (call : Rpc.Call) (rest : List Rpc.Call) (outcome : Rpc.CallOutcome) (starts : Nat)
      (due : before.due = call :: rest) (later : before.starts ≤ starts) :
      Step before (((before.make call rest).note (call, outcome) starts).conclude (call, outcome))
  | hears (waiting : OpenCall) (outcome : Rpc.CallOutcome)
      (found : before.openCalls.find? (·.start == waiting.start) = some waiting) :
      Step before (before.hear waiting outcome)
  | ends (returned : Return) (rest : List Return) (told : before.told = returned :: rest) :
      Step before ({ before with told := rest }.conclude returned)

/-- Any number of steps. -/
abbrev Steps : Traffic → Traffic → Prop := Relation.ReflTransGen Step

/-! ## What holds at all times -/

/-- The accepted requests over a method, in the order in which they were accepted. -/
def requestsTo (traffic : Traffic) (method : Rpc.Method) : List Rpc.Call :=
  (traffic.made ++ traffic.due).filter (·.method == method) ++ traffic.table.pendingOf method

/-- The calls that have a slot. -/
def holders (traffic : Traffic) : List Rpc.Call :=
  traffic.due ++ traffic.told.map Prod.fst ++ traffic.openCalls.map OpenCall.call

/-- The requests over a method carry the numbers from zero on and belong to the delegate that serves
the method. -/
structure Numbered (traffic : Traffic) : Prop where
  numbers : ∀ method, (traffic.requestsTo method).map Rpc.Call.index =
    List.range (traffic.table.acceptedOf method)
  own : ∀ method, ∀ call ∈ traffic.requestsTo method,
    traffic.table.delegateOf? method = some call.delegate

/-- The slots that are taken are those of the calls that have one. -/
def Slotted (traffic : Traffic) : Prop :=
  ∀ method, traffic.table.takenOf method = traffic.holders.countP (·.method == method)

/-- A call that was made waits for the remote side or returned once, and what it returned is
delivered once or is still to be delivered. -/
structure Conserved (traffic : Traffic) : Prop where
  calls : traffic.made.Perm
    (traffic.returned.map Prod.fst ++ traffic.openCalls.map OpenCall.call)
  results : (traffic.returned.map Return.delivery).Perm
    (traffic.results ++ traffic.told.map Return.delivery)

/-- The calls that wait for the remote side are told apart by their numbers. -/
structure Keyed (traffic : Traffic) : Prop where
  distinct : (traffic.openCalls.map OpenCall.start).Nodup
  issued : ∀ waiting ∈ traffic.openCalls, waiting.start < traffic.starts

section Laws

variable {slots : Nat} {before after : Traffic}

/-! ## Requests keep their order -/

/-- A request that is accepted is the last one over its method. -/
theorem requestsTo_accept (sound : before.table.Sound slots) {method : Rpc.Method}
    {body : Rpc.Bytes} {sink : Rpc.ResponseSink} {accepted : Rpc.Table.Accepted}
    (accepts : before.table.accept? method body sink = some accepted) :
    ∃ delegate, before.table.delegateOf? method = some delegate ∧ ∀ other,
      (before.accept accepted).requestsTo other = before.requestsTo other ++
        if other = method then [⟨delegate, before.table.acceptedOf method, body, sink⟩] else [] := by
  obtain ⟨delegate, serves, order⟩ := Rpc.Table.order_accept? sound accepts
  refine ⟨delegate, serves, fun other => ?_⟩
  simp only [requestsTo, accept, List.filter_append, List.append_assoc, order]

theorem requestsTo_make {call : Rpc.Call} {rest : List Rpc.Call} (due : before.due = call :: rest)
    (method : Rpc.Method) :
    (before.make call rest).requestsTo method = before.requestsTo method := by
  simp [requestsTo, make, due]

theorem requestsTo_conclude (before : Traffic) (sound : before.table.Sound slots)
    (returned : Return) (method : Rpc.Method) :
    (before.conclude returned).requestsTo method = before.requestsTo method := by
  simp only [requestsTo, conclude, List.filter_append, List.append_assoc,
    Rpc.Table.order_release sound]

theorem Step.sound (step : Step before after) (sound : before.table.Sound slots) :
    after.table.Sound slots := by
  cases step with
  | accepts method body sink accepted accepts => exact sound.accept? accepts
  | returns | ends => exact Rpc.Table.Sound.release sound
  | _ => exact sound

theorem Step.delegateOf?_eq (step : Step before after) (method : Rpc.Method) :
    after.table.delegateOf? method = before.table.delegateOf? method := by
  cases step with
  | accepts other body sink accepted accepts => exact Rpc.Table.delegateOf?_accept? accepts method
  | returns | ends => exact Rpc.Table.delegateOf?_release _ _ method
  | _ => rfl

/-- A step leaves the requests over a method as they are, or adds one at the end. -/
theorem Step.requestsTo_cases (step : Step before after) (sound : before.table.Sound slots)
    (method : Rpc.Method) :
    after.requestsTo method = before.requestsTo method ∧
        after.table.acceptedOf method = before.table.acceptedOf method ∨
      ∃ delegate body sink, before.table.delegateOf? method = some delegate ∧
        after.requestsTo method = before.requestsTo method ++
          [⟨delegate, before.table.acceptedOf method, body, sink⟩] ∧
        after.table.acceptedOf method = before.table.acceptedOf method + 1 := by
  cases step with
  | stays | hears => exact .inl ⟨rfl, rfl⟩
  | accepts other body sink accepted accepts =>
      obtain ⟨delegate, serves, appended⟩ := requestsTo_accept sound accepts
      have counted : (before.accept accepted).table.acceptedOf method = _ :=
        Rpc.Table.acceptedOf_accept? accepts method
      rw [appended, counted]
      by_cases same : method = other
      · subst same
        exact .inr ⟨delegate, body, sink, serves, by rw [if_pos rfl], by rw [if_pos rfl]⟩
      · rw [if_neg same, if_neg same]
        exact .inl ⟨List.append_nil _, rfl⟩
  | opens call rest due => exact .inl ⟨requestsTo_make due method, rfl⟩
  | returns call rest outcome starts due =>
      refine .inl ⟨?_, Rpc.Table.acceptedOf_release _ _ method⟩
      rw [← requestsTo_make due method]
      exact requestsTo_conclude ((before.make call rest).note _ starts) sound _ method
  | ends returned rest told =>
      refine .inl ⟨?_, Rpc.Table.acceptedOf_release _ _ method⟩
      exact requestsTo_conclude { before with told := rest } sound _ method

theorem Step.keepsRequests (step : Step before after) (sound : before.table.Sound slots)
    (method : Rpc.Method) : before.requestsTo method <+: after.requestsTo method := by
  rcases step.requestsTo_cases sound method with ⟨same, -⟩ | ⟨delegate, body, sink, -, added, -⟩
  · exact same ▸ List.prefix_rfl
  · rw [added]
    exact List.prefix_append _ _

theorem Step.numbered (step : Step before after) (sound : before.table.Sound slots)
    (numbered : before.Numbered) : after.Numbered where
  numbers := by
    intro method
    have numbers := numbered.numbers method
    rcases step.requestsTo_cases sound method with
      ⟨same, accepted⟩ | ⟨delegate, body, sink, -, added, accepted⟩
    · rw [same, accepted]
      exact numbers
    · rw [added, accepted, List.map_append, numbers, List.range_succ]
      rfl
  own := by
    intro method call member
    rw [step.delegateOf?_eq]
    rcases step.requestsTo_cases sound method with ⟨same, -⟩ | ⟨delegate, body, sink, serves, added, -⟩
    · rw [same] at member
      exact numbered.own method call member
    · rw [added] at member
      rcases List.mem_append.mp member with earlier | new
      · exact numbered.own method call earlier
      · rw [List.mem_singleton.mp new]
        exact serves

/-! ## Slots -/

theorem countP_of_method {calls : List Rpc.Call} {method : Rpc.Method}
    (own : ∀ call ∈ calls, call.method = method) (other : Rpc.Method) :
    calls.countP (·.method == other) = if other = method then calls.length else 0 := by
  rw [List.countP_eq_length_filter, Rpc.filter_of_method own]
  split <;> rfl

/-- A slot that is given back passes to the call that takes it over. -/
theorem Slotted.conclude {returned : Return} (sound : before.table.Sound slots)
    (slotted : ∀ method, before.table.takenOf method =
      (returned.1 :: before.holders).countP (·.method == method)) :
    (before.conclude returned).Slotted := by
  have taken : 0 < before.table.takenOf returned.1.method := by
    rw [slotted, List.countP_cons_of_pos (by simp)]
    exact Nat.succ_pos _
  intro method
  have released := before.table.takenOf_release returned.1.method taken method
  have passes := countP_of_method (fun next (member : next ∈
    (before.table.release returned.1.method).1.toList) =>
      sound.method_of_released (Option.mem_toList.mp member)) method
  have held := slotted method
  simp only [List.countP_cons, holders, List.countP_append, Traffic.conclude] at held ⊢
  rw [passes]
  by_cases same : method = returned.1.method
  · simp [same] at released held ⊢
    omega
  · simp [same, Ne.symm same] at released held ⊢
    omega

theorem Step.slotted (step : Step before after) (sound : before.table.Sound slots)
    (slotted : before.Slotted) (keyed : before.Keyed) : after.Slotted := by
  cases step with
  | stays => exact slotted
  | accepts other body sink accepted accepts =>
      intro method
      have starts := countP_of_method (fun call (member : call ∈ accepted.started.toList) =>
        Rpc.Table.method_of_started accepts (Option.mem_toList.mp member)) method
      have held := slotted method
      have taken := Rpc.Table.takenOf_accept? accepts method
      simp only [holders, accept, List.countP_append] at held ⊢
      omega
  | opens call rest due =>
      intro method
      have held := slotted method
      simp only [holders, due, make, wait, List.countP_append, List.countP_cons, List.map_append,
        List.map_cons, List.map_nil, List.countP_nil] at held ⊢
      omega
  | returns call rest outcome starts due later =>
      refine Slotted.conclude sound fun method => ?_
      have held := slotted method
      simp only [holders, due, List.cons_append] at held
      exact held
  | hears waiting outcome found =>
      intro method
      have held := slotted method
      have goes := ((perm_cons_filter keyed.distinct found).map OpenCall.call).countP_eq
        (·.method == method)
      simp only [holders, hear, List.countP_append, List.countP_cons, List.map_append,
        List.map_cons, List.map_nil, List.countP_nil] at held goes ⊢
      omega
  | ends returned rest told =>
      refine Slotted.conclude sound fun method => ?_
      have held := slotted method
      simp only [holders, told, List.countP_append, List.countP_cons, List.map_cons] at held ⊢
      omega

/-! ## Calls return and results are delivered once -/

theorem Step.keyed (step : Step before after) (keyed : before.Keyed) : after.Keyed := by
  obtain ⟨distinct, issued⟩ := keyed
  cases step with
  | opens call rest due =>
      constructor
      · show ((before.openCalls ++ [OpenCall.mk before.starts call]).map OpenCall.start).Nodup
        rw [List.map_append]
        refine List.nodup_append.mpr ⟨distinct, List.pairwise_singleton _ _, ?_⟩
        intro start member next added same
        obtain ⟨waiting, waits, rfl⟩ := List.mem_map.mp member
        have earlier := issued waiting waits
        rw [same, List.mem_singleton.mp added] at earlier
        exact Nat.lt_irrefl _ earlier
      · intro waiting member
        rcases List.mem_append.mp member with earlier | added
        · exact Nat.lt_succ_of_lt (issued waiting earlier)
        · rw [List.mem_singleton.mp added]
          exact Nat.lt_succ_self _
  | returns call rest outcome starts due later =>
      exact ⟨distinct, fun waiting member => Nat.lt_of_lt_of_le (issued waiting member) later⟩
  | hears waiting outcome found =>
      constructor
      · exact distinct.sublist (List.filter_sublist.map OpenCall.start)
      · intro other member
        exact issued other (List.mem_filter.mp member).1
  | _ => exact ⟨distinct, issued⟩

theorem Step.conserved (step : Step before after) (keyed : before.Keyed)
    (conserved : before.Conserved) : after.Conserved := by
  obtain ⟨calls, results⟩ := conserved
  rw [List.perm_iff_count] at calls results
  constructor <;> rw [List.perm_iff_count]
  · intro call
    have counted := calls call
    cases step with
    | stays | accepts | ends => exact counted
    | opens | returns =>
        simp only [make, wait, note, conclude, List.map_append, List.map_cons, List.map_nil,
          List.count_append] at counted ⊢
        omega
    | hears waiting outcome found =>
        have goes := ((perm_cons_filter keyed.distinct found).map OpenCall.call).count_eq call
        simp only [hear, List.map_append, List.map_cons, List.map_nil, List.count_append,
          List.count_cons, List.count_nil] at counted goes ⊢
        omega
  · intro delivery
    have counted := results delivery
    cases step with
    | stays | accepts | opens => exact counted
    | returns | hears =>
        simp only [make, note, hear, conclude, List.map_append, List.map_cons, List.map_nil,
          List.count_append] at counted ⊢
        omega
    | ends returned rest told =>
        simp only [told, conclude, List.map_cons, List.count_append, List.count_cons,
          List.count_nil] at counted ⊢
        omega

/-! ## Any number of steps -/

/-- All that holds of the traffic of a peer whose methods have so many slots. -/
structure Lawful (slots : Nat) (traffic : Traffic) : Prop where
  sound : traffic.table.Sound slots
  numbered : traffic.Numbered
  slotted : traffic.Slotted
  keyed : traffic.Keyed
  conserved : traffic.Conserved

/-- The traffic before any request. -/
def fresh (table : Rpc.Table) : Traffic where
  table := table
  made := []
  due := []
  openCalls := []
  starts := 0
  returned := []
  told := []
  results := []

theorem lawful_fresh (slots : Nat) (delegates : List Rpc.Delegate) :
    (fresh (Rpc.Table.ofDelegates slots delegates).2).Lawful (max 1 slots) where
  sound := Rpc.Table.sound_ofDelegates slots delegates
  numbered := by
    have noneWaits (method : Rpc.Method) :
        (fresh (Rpc.Table.ofDelegates slots delegates).2).requestsTo method = [] :=
      Rpc.Table.pendingOf_ofDelegates slots delegates method
    constructor <;> intro method
    · rw [noneWaits, fresh, Rpc.Table.acceptedOf_ofDelegates]
      rfl
    · rw [noneWaits]
      intro call member
      cases member
  slotted := Rpc.Table.takenOf_ofDelegates slots delegates
  keyed := ⟨List.nodup_nil, by intro waiting member; cases member⟩
  conserved := ⟨List.Perm.refl _, List.Perm.refl _⟩

theorem Step.lawful (step : Step before after) (lawful : before.Lawful slots) :
    after.Lawful slots where
  sound := step.sound lawful.sound
  numbered := step.numbered lawful.sound lawful.numbered
  slotted := step.slotted lawful.sound lawful.slotted lawful.keyed
  keyed := step.keyed lawful.keyed
  conserved := step.conserved lawful.keyed lawful.conserved

theorem Steps.lawful (steps : Steps before after) (lawful : before.Lawful slots) :
    after.Lawful slots := by
  induction steps with
  | refl => exact lawful
  | tail _ step inductionHypothesis => exact step.lawful inductionHypothesis

theorem Steps.delegateOf?_eq (steps : Steps before after) (method : Rpc.Method) :
    after.table.delegateOf? method = before.table.delegateOf? method := by
  induction steps with
  | refl => rfl
  | tail _ step inductionHypothesis =>
      rw [step.delegateOf?_eq]
      exact inductionHypothesis

/-- A request keeps its place among the requests over its method. -/
theorem Steps.keepsRequests (steps : Steps before after) (lawful : before.Lawful slots)
    (method : Rpc.Method) : before.requestsTo method <+: after.requestsTo method := by
  induction steps with
  | refl => exact List.prefix_rfl
  | tail earlier step inductionHypothesis =>
      have reached : Steps before _ := earlier
      exact inductionHypothesis.trans (step.keepsRequests (reached.lawful lawful).sound method)

end Laws

end Traffic

end PeerLink.Peer
