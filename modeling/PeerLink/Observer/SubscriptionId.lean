/-!
Contract: the ids under which disconnect observers are registered.

Owns: the ids, their order of allocation, their end, and their text.

Does not own: the registry that hands them out.
-/

namespace PeerLink

/-- The id of a disconnect subscription. Ids are allocated in increasing order, so their order is the
order of subscription. -/
structure SubscriptionId where
  value : Nat
deriving DecidableEq, Repr, Inhabited

namespace SubscriptionId

/-- The number of ids there are: ids are unsigned words of 64 bits. -/
def count : Nat := 18446744073709551616

/-- The text raised when the ids are used up. -/
def exhausted : String := "attempt to add with overflow"

def first : SubscriptionId := ⟨0⟩

/-- The id after this one, unless this is the last. -/
def next? (id : SubscriptionId) : Option SubscriptionId :=
  if id.value + 1 < count then some ⟨id.value + 1⟩ else none

def text (id : SubscriptionId) : String := "sub-" ++ toString id.value

end SubscriptionId

end PeerLink
