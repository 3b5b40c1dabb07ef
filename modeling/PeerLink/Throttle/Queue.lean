/-!
Contract: admission to a bounded number of slots, oldest first.

A queue has a limit of at least one slot. An item is admitted while a slot is free and waits
otherwise; a slot that is given back passes straight to the item that has waited longest, so the
number of slots taken falls only when nothing waits.

Owns: the queue, admission and release.

Does not own: what an item is, and when its work runs or ends.
-/

namespace PeerLink.Throttle

/-- The slots of one queue and the items waiting for one, the oldest first. -/
structure Queue (α : Type) where
  limit : Nat
  inFlight : Nat := 0
  pending : List α := []
deriving DecidableEq, Repr

namespace Queue

variable {α : Type}

/-- An empty queue with the requested number of slots, and at least one. -/
def ofLimit (requested : Nat) : Queue α := { limit := max 1 requested }

/-- Offers an item. The answer is the item itself if it takes a slot, and nothing if it waits. -/
def offer (queue : Queue α) (item : α) : Option α × Queue α :=
  if queue.inFlight < queue.limit then
    (some item, { queue with inFlight := queue.inFlight + 1 })
  else (none, { queue with pending := queue.pending ++ [item] })

/-- Gives a slot back. The answer is the item it passes to; if nothing waits the slot is free. -/
def release (queue : Queue α) : Option α × Queue α :=
  match queue.pending with
  | next :: rest => (some next, { queue with pending := rest })
  | [] => (none, { queue with inFlight := queue.inFlight - 1 })

def queued (queue : Queue α) : Nat := queue.pending.length

/-- The debug text: limit, slots taken, items waiting. -/
def debugText (queue : Queue α) : String :=
  "ThrottlingTaskQueue \x7b max_concurrent: " ++ toString queue.limit ++ ", in_flight: " ++
    toString queue.inFlight ++ ", queued: " ++ toString queue.queued ++ " \x7d"

end Queue

end PeerLink.Throttle
