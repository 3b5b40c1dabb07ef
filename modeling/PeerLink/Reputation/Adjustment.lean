import PeerLink.Naming

/-!
Contract: the scored events a peer's reputation moves by.

Owns: the adjustments, their names and their score changes.

Does not own: scores.
-/

namespace PeerLink.Reputation

/-- A scored event applied to a peer. -/
inductive Adjustment where
  | largePenalty
  | smallPenalty
  | smallReward
  | largeReward
deriving DecidableEq, Repr, Inhabited

namespace Adjustment

def all : List Adjustment := [largePenalty, smallPenalty, smallReward, largeReward]

def name : Adjustment → String
  | largePenalty => "large_penalty"
  | smallPenalty => "small_penalty"
  | smallReward => "small_reward"
  | largeReward => "large_reward"

/-- Reads a stored name: only the exact spelling is taken. -/
def ofName? (text : String) : Option Adjustment := Naming.find? name all text

def change : Adjustment → Int
  | largePenalty => -10
  | smallPenalty => -3
  | smallReward => 3
  | largeReward => 10

def isPenalty (adjustment : Adjustment) : Bool := adjustment.change < 0

/-- The change with its sign, also when it is positive. -/
def text (adjustment : Adjustment) : String :=
  (if adjustment.change < 0 then "-" else "+") ++ toString adjustment.change.natAbs

end Adjustment

end PeerLink.Reputation
