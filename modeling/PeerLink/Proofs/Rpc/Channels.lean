import PeerLink.Proofs.Rpc.Table

/-!
Contract: what a table holds for each of its methods.

Accepting and releasing touch the channel of one method. The calls that wait there keep their order,
and every call that leaves the queue takes a slot with it.

Owns: the delegate of a method, its calls that wait, its slots that are taken and its count of
accepted calls, how accepting and releasing change them, and what holds of every channel.

Does not own: where a call is after it was given a slot.
-/

namespace PeerLink.Rpc

/-- Calls of one method are all seen or all left out when one looks for a method. -/
theorem filter_of_method {calls : List Call} {method : Method}
    (own : ∀ call ∈ calls, call.method = method) (other : Method) :
    calls.filter (·.method == other) = if other = method then calls else [] := by
  split
  · rename_i same
    apply List.filter_eq_self.mpr
    intro call member
    exact beq_iff_eq.mpr ((own call member).trans same.symm)
  · rename_i different
    apply List.filter_eq_nil_iff.mpr
    intro call member equal
    exact different ((eq_of_beq equal).symm.trans (own call member))

namespace Table

/-! ## What is held for one method -/

def delegateOf? (table : Table) (method : Method) : Option Delegate :=
  (table.find? method).map Channel.delegate

/-- The calls that wait for a slot, the oldest first. -/
def pendingOf (table : Table) (method : Method) : List Call :=
  ((table.find? method).map fun channel => channel.queue.pending).getD []

/-- How many slots of a method are taken. -/
def takenOf (table : Table) (method : Method) : Nat :=
  ((table.find? method).map fun channel => channel.queue.inFlight).getD 0

/-- How many calls of a method were accepted. -/
def acceptedOf (table : Table) (method : Method) : Nat :=
  ((table.find? method).map Channel.accepted).getD 0

theorem method_of_delegateOf? {table : Table} {method : Method} {delegate : Delegate}
    (serves : table.delegateOf? method = some delegate) : delegate.method = method := by
  obtain ⟨channel, found, rfl⟩ := Option.map_eq_some_iff.mp serves
  exact method_of_find? found

/-- What holds of the channels of a table at all times, if each has so many slots. -/
structure Sound (slots : Nat) (table : Table) : Prop where
  busy : ∀ method channel, table.find? method = some channel → channel.queue.Busy slots
  /-- The calls that wait are calls of the delegate that serves their method. -/
  own : ∀ method, ∀ call ∈ table.pendingOf method, table.delegateOf? method = some call.delegate

theorem Sound.method_of_pending {slots : Nat} {table : Table} (sound : table.Sound slots)
    {method : Method} {call : Call} (waits : call ∈ table.pendingOf method) :
    call.method = method :=
  method_of_delegateOf? (sound.own method call waits)

/-- While a call waits, every slot of its method is taken. -/
theorem Sound.takenOf_eq {slots : Nat} {table : Table} (sound : table.Sound slots)
    {method : Method} (waits : table.pendingOf method ≠ []) : table.takenOf method = slots := by
  unfold pendingOf at waits
  unfold takenOf
  cases found : table.find? method with
  | none =>
      rw [found] at waits
      exact absurd rfl waits
  | some channel =>
      rw [found] at waits
      exact (sound.busy method channel found).full waits

/-! ## Construction -/

/-- The channel of a delegate before any call. -/
def freshChannel (slots : Nat) (delegate : Delegate) : Channel :=
  { delegate := delegate, queue := .ofLimit slots }

theorem find?_register (table : Table) (slots : Nat) (delegate : Delegate) (method : Method) :
    (table.register slots delegate).2.find? method =
      (table.find? method).or
        (if delegate.method = method then some (freshChannel slots delegate) else none) := by
  unfold register
  split
  · rename_i served
    by_cases same : delegate.method = method
    · subst same
      obtain ⟨channel, found⟩ := Option.isSome_iff_exists.mp served
      rw [found, Option.some_or]
    · rw [if_neg same, Option.or_none]
  · unfold find?
    rw [List.find?_append]
    by_cases same : delegate.method = method <;> simp [Channel.method, freshChannel, same]

theorem find?_registerAll (table : Table) (slots : Nat) (delegates : List Delegate)
    (method : Method) :
    (table.registerAll slots delegates).2.find? method =
      (table.find? method).or ((delegates.find? (·.method == method)).map (freshChannel slots)) := by
  induction delegates generalizing table with
  | nil => exact Option.or_none.symm
  | cons delegate rest inductionHypothesis =>
      have registered := inductionHypothesis (table.register slots delegate).2
      rw [find?_register, Option.or_assoc] at registered
      refine registered.trans (congrArg _ ?_)
      by_cases same : delegate.method = method <;> simp [same]

/-- The first delegate of a method serves it. -/
theorem find?_ofDelegates (slots : Nat) (delegates : List Delegate) (method : Method) :
    (ofDelegates slots delegates).2.find? method =
      (delegates.find? (·.method == method)).map (freshChannel slots) :=
  find?_registerAll {} slots delegates method

theorem delegateOf?_ofDelegates (slots : Nat) (delegates : List Delegate) (method : Method) :
    (ofDelegates slots delegates).2.delegateOf? method =
      delegates.find? (·.method == method) := by
  rw [delegateOf?, find?_ofDelegates, Option.map_map]
  exact Option.map_id_apply

section Fresh

variable (slots : Nat) (delegates : List Delegate) (method : Method)

theorem pendingOf_ofDelegates : (ofDelegates slots delegates).2.pendingOf method = [] := by
  rw [pendingOf, find?_ofDelegates]
  cases delegates.find? (·.method == method) <;> rfl

theorem takenOf_ofDelegates : (ofDelegates slots delegates).2.takenOf method = 0 := by
  rw [takenOf, find?_ofDelegates]
  cases delegates.find? (·.method == method) <;> rfl

theorem acceptedOf_ofDelegates : (ofDelegates slots delegates).2.acceptedOf method = 0 := by
  rw [acceptedOf, find?_ofDelegates]
  cases delegates.find? (·.method == method) <;> rfl

theorem sound_ofDelegates : (ofDelegates slots delegates).2.Sound (max 1 slots) where
  busy := by
    intro method channel found
    rw [find?_ofDelegates] at found
    obtain ⟨delegate, -, rfl⟩ := Option.map_eq_some_iff.mp found
    exact Throttle.Queue.busy_ofLimit slots
  own := by
    intro method call waits
    rw [pendingOf_ofDelegates] at waits
    cases waits

end Fresh

/-! ## Accepting -/

section Accepting

variable {table : Table} {method : Method} {body : Bytes} {sink : ResponseSink}
  {accepted : Accepted}

/-- A method is refused exactly if it has no channel. -/
theorem accept?_eq_none_iff :
    table.accept? method body sink = none ↔ table.delegateOf? method = none := by
  simp [accept?, delegateOf?]

/-- Accepting takes the next number of the channel of the method, and touches no other. -/
theorem exists_channel_of_accept? (accepts : table.accept? method body sink = some accepted) :
    ∃ channel, table.find? method = some channel ∧ channel.delegate.method = method ∧
      accepted.ticket = ⟨method, channel.accepted⟩ ∧
      accepted.started =
        (channel.queue.offer ⟨channel.delegate, channel.accepted, body, sink⟩).1 ∧
      ∀ other, accepted.table.find? other =
        if other = method then
          some { channel with
            queue := (channel.queue.offer ⟨channel.delegate, channel.accepted, body, sink⟩).2
            accepted := channel.accepted + 1 }
        else table.find? other := by
  obtain ⟨channel, found, rfl⟩ := Option.map_eq_some_iff.mp accepts
  have serves := method_of_find? found
  refine ⟨channel, found, serves, ?_, rfl, find?_update _ found serves⟩
  rw [← serves]
  rfl

theorem ticket_accept? (accepts : table.accept? method body sink = some accepted) :
    accepted.ticket = ⟨method, table.acceptedOf method⟩ := by
  obtain ⟨channel, found, -, ticket, -⟩ := exists_channel_of_accept? accepts
  rw [ticket, acceptedOf, found]
  rfl

theorem acceptedOf_accept? (accepts : table.accept? method body sink = some accepted)
    (other : Method) :
    accepted.table.acceptedOf other = table.acceptedOf other + if other = method then 1 else 0 := by
  obtain ⟨channel, found, -, -, -, replaced⟩ := exists_channel_of_accept? accepts
  unfold acceptedOf
  rw [replaced]
  split
  · rename_i same
    rw [same, found]
    rfl
  · rfl

theorem delegateOf?_accept? (accepts : table.accept? method body sink = some accepted)
    (other : Method) : accepted.table.delegateOf? other = table.delegateOf? other := by
  obtain ⟨channel, found, -, -, -, replaced⟩ := exists_channel_of_accept? accepts
  unfold delegateOf?
  rw [replaced]
  split
  · rename_i same
    rw [same, found]
    rfl
  · rfl

theorem takenOf_accept? (accepts : table.accept? method body sink = some accepted)
    (other : Method) :
    accepted.table.takenOf other =
      table.takenOf other + if other = method then accepted.started.toList.length else 0 := by
  obtain ⟨channel, found, -, -, started, replaced⟩ := exists_channel_of_accept? accepts
  unfold takenOf
  rw [replaced]
  split
  · rename_i same
    rw [same, found, started]
    exact channel.queue.inFlight_offer _
  · rfl

/-- The accepted call starts or is the last to wait, with its own payload and sink. -/
theorem pendingOf_accept? {slots : Nat} (sound : table.Sound slots)
    (accepts : table.accept? method body sink = some accepted) :
    ∃ delegate, table.delegateOf? method = some delegate ∧
      accepted.started.toList ++ accepted.table.pendingOf method =
        table.pendingOf method ++ [⟨delegate, table.acceptedOf method, body, sink⟩] := by
  obtain ⟨channel, found, -, -, started, replaced⟩ := exists_channel_of_accept? accepts
  refine ⟨channel.delegate, by rw [delegateOf?, found]; rfl, ?_⟩
  rw [started, pendingOf, pendingOf, acceptedOf, replaced, if_pos rfl, found]
  exact (sound.busy method channel found).pending_offer _

theorem pendingOf_accept?_of_ne (accepts : table.accept? method body sink = some accepted)
    {other : Method} (different : other ≠ method) :
    accepted.table.pendingOf other = table.pendingOf other := by
  obtain ⟨channel, found, -, -, -, replaced⟩ := exists_channel_of_accept? accepts
  rw [pendingOf, pendingOf, replaced, if_neg different]

/-- A call that starts at once is a call of the method. -/
theorem method_of_started (accepts : table.accept? method body sink = some accepted) {call : Call}
    (starts : accepted.started = some call) : call.method = method := by
  obtain ⟨channel, found, serves, -, started, -⟩ := exists_channel_of_accept? accepts
  rw [started] at starts
  unfold Throttle.Queue.offer at starts
  split at starts
  · obtain rfl := Option.some.inj starts
    exact serves
  · cases starts

/-- As `pendingOf_accept?` has it, whichever method one looks at. -/
theorem order_accept? {slots : Nat} (sound : table.Sound slots)
    (accepts : table.accept? method body sink = some accepted) :
    ∃ delegate, table.delegateOf? method = some delegate ∧ ∀ other,
      accepted.started.toList.filter (·.method == other) ++ accepted.table.pendingOf other =
        table.pendingOf other ++
          if other = method then [⟨delegate, table.acceptedOf method, body, sink⟩] else [] := by
  obtain ⟨delegate, serves, order⟩ := pendingOf_accept? sound accepts
  refine ⟨delegate, serves, fun other => ?_⟩
  rw [filter_of_method fun call member => method_of_started accepts (Option.mem_toList.mp member)]
  by_cases same : other = method
  · rw [if_pos same, if_pos same, same]
    exact order
  · rw [if_neg same, if_neg same, pendingOf_accept?_of_ne accepts same, List.nil_append,
      List.append_nil]

theorem Sound.accept? {slots : Nat} (sound : table.Sound slots)
    (accepts : table.accept? method body sink = some accepted) : accepted.table.Sound slots where
  busy := by
    obtain ⟨channel, found, -, -, -, replaced⟩ := exists_channel_of_accept? accepts
    intro other old there
    rw [replaced] at there
    split at there
    · obtain rfl := Option.some.inj there
      exact (sound.busy method channel found).offer _
    · exact sound.busy other old there
  own := by
    intro other call waits
    rw [delegateOf?_accept? accepts]
    by_cases same : other = method
    · subst same
      obtain ⟨delegate, serves, order⟩ := pendingOf_accept? sound accepts
      have member := List.mem_append_right accepted.started.toList waits
      rw [order] at member
      rcases List.mem_append.mp member with waited | added
      · exact sound.own other call waited
      · rw [List.mem_singleton.mp added]
        exact serves
    · rw [pendingOf_accept?_of_ne accepts same] at waits
      exact sound.own other call waits

end Accepting

/-! ## Releasing -/

section Releasing

variable (table : Table) (method : Method)

theorem release_of_unserved {table : Table} {method : Method}
    (unserved : table.find? method = none) : table.release method = (none, table) := by
  simp [release, unserved]

/-- Releasing changes the queue of the method, and nothing else. -/
theorem release_of_served {table : Table} {method : Method} {channel : Channel}
    (found : table.find? method = some channel) :
    (table.release method).1 = channel.queue.release.1 ∧
      ∀ other, (table.release method).2.find? other =
        if other = method then some { channel with queue := channel.queue.release.2 }
        else table.find? other := by
  have released : table.release method =
      (channel.queue.release.1, table.update { channel with queue := channel.queue.release.2 }) := by
    simp [release, found]
  rw [released]
  have serves := method_of_find? found
  exact ⟨rfl, find?_update _ found serves⟩

theorem acceptedOf_release (other : Method) :
    (table.release method).2.acceptedOf other = table.acceptedOf other := by
  cases found : table.find? method with
  | none => rw [release_of_unserved found]
  | some channel =>
      unfold acceptedOf
      rw [(release_of_served found).2]
      split
      · rename_i same
        rw [same, found]
        rfl
      · rfl

theorem delegateOf?_release (other : Method) :
    (table.release method).2.delegateOf? other = table.delegateOf? other := by
  cases found : table.find? method with
  | none => rw [release_of_unserved found]
  | some channel =>
      unfold delegateOf?
      rw [(release_of_served found).2]
      split
      · rename_i same
        rw [same, found]
        rfl
      · rfl

/-- The slot that is given back passes on or is free. -/
theorem takenOf_release (taken : 0 < table.takenOf method) (other : Method) :
    (table.release method).2.takenOf other + (if other = method then 1 else 0) =
      table.takenOf other +
        if other = method then (table.release method).1.toList.length else 0 := by
  cases found : table.find? method with
  | none =>
      unfold takenOf at taken
      rw [found] at taken
      exact absurd taken (Nat.lt_irrefl 0)
  | some channel =>
      obtain ⟨passes, replaced⟩ := release_of_served found
      unfold takenOf at taken ⊢
      rw [replaced, passes]
      split
      · rename_i same
        rw [found] at taken
        rw [same, found]
        exact channel.queue.inFlight_release taken
      · rfl

/-- The slot passes to the call that has waited longest. -/
theorem pendingOf_release :
    (table.release method).1.toList ++ (table.release method).2.pendingOf method =
      table.pendingOf method := by
  cases found : table.find? method with
  | none =>
      rw [release_of_unserved found]
      rfl
  | some channel =>
      obtain ⟨passes, replaced⟩ := release_of_served found
      rw [passes, pendingOf, pendingOf, replaced, if_pos rfl, found]
      exact channel.queue.pending_release

theorem pendingOf_release_of_ne {other : Method} (different : other ≠ method) :
    (table.release method).2.pendingOf other = table.pendingOf other := by
  cases found : table.find? method with
  | none => rw [release_of_unserved found]
  | some channel => rw [pendingOf, pendingOf, (release_of_served found).2, if_neg different]

variable {table method}

theorem Sound.method_of_released {slots : Nat} (sound : table.Sound slots) {next : Call}
    (passes : (table.release method).1 = some next) : next.method = method := by
  apply sound.method_of_pending
  rw [← pendingOf_release, passes]
  exact List.mem_cons_self

/-- As `pendingOf_release` has it, whichever method one looks at. -/
theorem order_release {slots : Nat} (sound : table.Sound slots) (other : Method) :
    (table.release method).1.toList.filter (·.method == other) ++
        (table.release method).2.pendingOf other =
      table.pendingOf other := by
  rw [filter_of_method fun call member => sound.method_of_released (Option.mem_toList.mp member)]
  by_cases same : other = method
  · rw [if_pos same, same]
    exact pendingOf_release table method
  · rw [if_neg same, pendingOf_release_of_ne table method same, List.nil_append]

theorem Sound.release {slots : Nat} (sound : table.Sound slots) :
    (table.release method).2.Sound slots where
  busy := by
    cases found : table.find? method with
    | none =>
        rw [release_of_unserved found]
        exact sound.busy
    | some channel =>
        intro other old there
        rw [(release_of_served found).2] at there
        split at there
        · obtain rfl := Option.some.inj there
          exact (sound.busy method channel found).release
        · exact sound.busy other old there
  own := by
    intro other call waits
    rw [delegateOf?_release]
    by_cases same : other = method
    · subst same
      have member := List.mem_append_right (table.release other).1.toList waits
      rw [pendingOf_release] at member
      exact sound.own other call member
    · rw [pendingOf_release_of_ne table method same] at waits
      exact sound.own other call waits

end Releasing

end Table

end PeerLink.Rpc
