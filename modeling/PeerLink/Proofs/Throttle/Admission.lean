import PeerLink.Throttle.Queue

/-!
Contract: what offering and releasing do to the items of a queue and to its slots.

Owns: that no item is lost or overtaken, and that every admitted item has a slot.

Does not own: what becomes of an admitted item.
-/

namespace PeerLink.Throttle.Queue

variable {α : Type} (queue : Queue α)

/-- An item waits only while every slot is taken. -/
structure Busy (slots : Nat) : Prop where
  limit : queue.limit = slots
  bounded : queue.inFlight ≤ slots
  full : queue.pending ≠ [] → queue.inFlight = slots

theorem busy_ofLimit (requested : Nat) : (ofLimit requested : Queue α).Busy (max 1 requested) where
  limit := rfl
  bounded := Nat.zero_le _
  full := fun waits => absurd rfl waits

variable {queue} {slots : Nat}

theorem Busy.offer (busy : queue.Busy slots) (item : α) : (queue.offer item).2.Busy slots := by
  obtain ⟨limit, bounded, full⟩ := busy
  unfold Queue.offer
  split
  · rename_i isFree
    rw [limit] at isFree
    refine ⟨limit, isFree, fun waits => ?_⟩
    have taken := full waits
    omega
  · rename_i isFull
    rw [limit] at isFull
    exact ⟨limit, bounded, fun _ => Nat.le_antisymm bounded (Nat.le_of_not_lt isFull)⟩

theorem Busy.release (busy : queue.Busy slots) : queue.release.2.Busy slots := by
  obtain ⟨limit, bounded, full⟩ := busy
  unfold Queue.release
  split
  · rename_i next rest pending
    exact ⟨limit, bounded, fun _ => full (by rw [pending]; exact List.cons_ne_nil _ _)⟩
  · rename_i pending
    exact ⟨limit, Nat.le_trans (Nat.sub_le _ 1) bounded, fun waits => absurd pending waits⟩

/-- An item is admitted or is the last to wait. It overtakes none, as none waits while a slot is
free. -/
theorem Busy.pending_offer (busy : queue.Busy slots) (item : α) :
    (queue.offer item).1.toList ++ (queue.offer item).2.pending = queue.pending ++ [item] := by
  unfold Queue.offer
  split
  · rename_i isFree
    have noneWaits : queue.pending = [] := by
      by_cases waits : queue.pending = []
      · exact waits
      · have taken := busy.full waits
        rw [busy.limit] at isFree
        omega
    simp [noneWaits]
  · rfl

variable (queue)

theorem inFlight_offer (item : α) :
    (queue.offer item).2.inFlight = queue.inFlight + (queue.offer item).1.toList.length := by
  unfold Queue.offer
  split <;> rfl

theorem queued_offer (item : α) :
    (queue.offer item).2.queued + (queue.offer item).1.toList.length = queue.queued + 1 := by
  unfold Queue.offer queued
  split <;> simp

/-- A slot that is given back goes to the item that has waited longest, if there is one. -/
theorem pending_release :
    queue.release.1.toList ++ queue.release.2.pending = queue.pending := by
  unfold Queue.release
  split <;> rename_i pending <;> simp [pending]

theorem inFlight_release (taken : 0 < queue.inFlight) :
    queue.release.2.inFlight + 1 = queue.inFlight + queue.release.1.toList.length := by
  unfold Queue.release
  split
  · rfl
  · exact Nat.sub_add_cancel taken

theorem queued_release :
    queue.release.2.queued + queue.release.1.toList.length = queue.queued := by
  have kept := congrArg List.length queue.pending_release
  rw [List.length_append] at kept
  unfold queued
  omega

end PeerLink.Throttle.Queue
