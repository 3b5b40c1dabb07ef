import PeerLink.Proofs.Throttle.Admission
import PeerLink.Rpc.Table
import PeerLink.Total

/-!
Contract: what stays the same about a table of methods, and what its queues hold in total.

Owns: that a table serves every method once, that accepting and releasing keep the served methods,
and how they change the number of calls that wait.

Does not own: what happens to the calls.
-/

namespace PeerLink.Rpc.Table

/-- The methods of the channels, in order of registration. -/
def served (table : Table) : List Method := table.channels.map Channel.method

/-- No method has two channels. -/
def Distinct (table : Table) : Prop := table.served.Nodup

/-- How many calls wait for a slot, of all methods. -/
def waiting (table : Table) : Nat := total (fun channel => channel.queue.queued) table.channels

/-! ## Construction -/

theorem supports_iff_mem_served (table : Table) (method : Method) :
    table.supports method = true ↔ method ∈ table.served := by
  unfold supports find? served
  rw [List.find?_isSome, List.mem_map]
  constructor
  · rintro ⟨channel, member, equal⟩
    exact ⟨channel, member, eq_of_beq equal⟩
  · rintro ⟨channel, member, equal⟩
    exact ⟨channel, member, beq_iff_eq.mpr equal⟩

theorem distinct_register {table : Table} (distinct : table.Distinct) (slots : Nat)
    (delegate : Delegate) : (table.register slots delegate).2.Distinct := by
  unfold register
  split
  · exact distinct
  · rename_i unserved
    rw [supports_iff_mem_served] at unserved
    unfold Distinct served
    rw [List.map_append]
    refine List.nodup_append.mpr ⟨distinct, List.pairwise_singleton _ _, ?_⟩
    intro method member other added equal
    rw [List.map_singleton, List.mem_singleton] at added
    rw [equal, added] at member
    exact unserved member

theorem distinct_registerAll {table : Table} (distinct : table.Distinct) (slots : Nat)
    (delegates : List Delegate) : (table.registerAll slots delegates).2.Distinct := by
  induction delegates generalizing table with
  | nil => exact distinct
  | cons delegate rest inductionHypothesis =>
      exact inductionHypothesis (distinct_register distinct slots delegate)

theorem distinct_ofDelegates (slots : Nat) (delegates : List Delegate) :
    (ofDelegates slots delegates).2.Distinct := by
  refine distinct_registerAll ?_ slots delegates
  exact List.nodup_nil

/-- The lines logged on the way are those of delegates that are left out. -/
theorem duplicateLine_of_registerAll {table : Table} {slots : Nat} {delegates : List Delegate}
    {line : LogLine} (logged : line ∈ (table.registerAll slots delegates).1) :
    ∃ delegate ∈ delegates, line = duplicateLine delegate := by
  induction delegates generalizing table with
  | nil => cases logged
  | cons delegate rest inductionHypothesis =>
      have among : line ∈ (table.register slots delegate).1 ++
          ((table.register slots delegate).2.registerAll slots rest).1 := logged
      rcases List.mem_append.mp among with here | later
      · unfold register at here
        split at here
        · exact ⟨delegate, List.mem_cons_self, List.mem_singleton.mp here⟩
        · cases here
      · obtain ⟨other, member, isLine⟩ := inductionHypothesis later
        exact ⟨other, List.mem_cons_of_mem _ member, isLine⟩

/-! ## Updates -/

theorem served_update (table : Table) (channel : Channel) :
    (table.update channel).served = table.served := by
  simp only [served, update, List.map_map]
  refine List.map_congr_left fun old _ => ?_
  by_cases same : old.method = channel.method <;> simp [same]

/-- Putting a channel in the place of the one found for its method changes a total by the difference
of the two. -/
theorem total_update {channels : List Channel} (distinct : (channels.map Channel.method).Nodup)
    (count : Channel → Nat) {old new : Channel}
    (found : channels.find? (·.method == new.method) = some old) :
    total count (channels.map fun channel => if channel.method = new.method then new else channel) +
        count old =
      total count channels + count new := by
  induction channels with
  | nil => cases found
  | cons first rest inductionHypothesis =>
      rw [List.map_cons, List.nodup_cons] at distinct
      by_cases isFirst : first.method = new.method
      · -- No other channel serves the method.
        have untouched : (rest.map fun channel =>
            if channel.method = new.method then new else channel) = rest.map fun channel => channel := by
          refine List.map_congr_left fun channel member => if_neg fun equal => ?_
          exact distinct.1 (List.mem_map.mpr ⟨channel, member, equal.trans isFirst.symm⟩)
        rw [List.find?_cons_of_pos (by simpa using isFirst)] at found
        obtain rfl := Option.some.inj found
        rw [List.map_cons, untouched, List.map_id', if_pos isFirst, total_cons, total_cons]
        omega
      · rw [List.find?_cons_of_neg (by simpa using isFirst)] at found
        have others := inductionHypothesis distinct.2 found
        rw [List.map_cons, if_neg isFirst, total_cons, total_cons]
        omega

theorem method_of_find? {table : Table} {method : Method} {channel : Channel}
    (found : table.find? method = some channel) : channel.method = method := by
  have matched := List.find?_some found
  exact eq_of_beq matched

/-- A channel put in the place of the one found for its method is found there. -/
theorem find?_update {table : Table} {method : Method} {old : Channel} (new : Channel)
    (found : table.find? method = some old) (same : new.method = method) (other : Method) :
    (table.update new).find? other = if other = method then some new else table.find? other := by
  have replaced : (table.update new).find? other =
      (table.find? other).map fun old => if old.method = new.method then new else old := by
    unfold update find?
    rw [List.find?_map]
    congr 2
    funext old
    by_cases equal : old.method = new.method <;> simp [equal]
  rw [replaced]
  by_cases isMethod : other = method
  · subst isMethod
    rw [found, if_pos rfl, Option.map_some, method_of_find? found, if_pos same.symm]
  · rw [if_neg isMethod]
    cases elsewhere : table.find? other with
    | none => rfl
    | some channel =>
        rw [Option.map_some, if_neg]
        rw [method_of_find? elsewhere, same]
        exact isMethod

/-- The calls that wait after a channel was replaced. -/
theorem waiting_update {table : Table} (distinct : table.Distinct) {method : Method}
    {old : Channel} (new : Channel) (found : table.find? method = some old)
    (same : new.method = method) :
    (table.update new).waiting + old.queue.queued = table.waiting + new.queue.queued := by
  subst same
  exact total_update distinct (fun channel => channel.queue.queued) found

/-! ## Accepting and releasing -/

section Traffic

variable {table : Table} {method : Method}

theorem served_accept? {body : Bytes} {sink : ResponseSink} {accepted : Accepted}
    (accepts : table.accept? method body sink = some accepted) :
    accepted.table.served = table.served := by
  obtain ⟨channel, -, rfl⟩ := Option.map_eq_some_iff.mp accepts
  exact served_update _ _

theorem served_release : (table.release method).2.served = table.served := by
  unfold release
  split
  · rfl
  · exact served_update _ _

/-- An accepted call either starts or waits. -/
theorem waiting_accept? (distinct : table.Distinct) {body : Bytes} {sink : ResponseSink}
    {accepted : Accepted} (accepts : table.accept? method body sink = some accepted) :
    accepted.table.waiting + accepted.started.toList.length = table.waiting + 1 := by
  obtain ⟨channel, found, rfl⟩ := Option.map_eq_some_iff.mp accepts
  have same := method_of_find? found
  have updated := waiting_update distinct { channel with
    queue := (channel.queue.offer ⟨channel.delegate, channel.accepted, body, sink⟩).2
    accepted := channel.accepted + 1 } found same
  have offered := channel.queue.queued_offer ⟨channel.delegate, channel.accepted, body, sink⟩
  dsimp only at updated ⊢
  omega

/-- A slot that is given back goes to a call that waited, if there is one. -/
theorem waiting_release (distinct : table.Distinct) :
    (table.release method).2.waiting + (table.release method).1.toList.length = table.waiting := by
  unfold release
  split
  · rfl
  · rename_i channel found
    have same := method_of_find? found
    have updated := waiting_update distinct { channel with queue := channel.queue.release.2 } found
      same
    have released := channel.queue.queued_release
    dsimp only at updated ⊢
    omega

end Traffic

end PeerLink.Rpc.Table
