/-!
Contract: the settings of reputation tracking.

Owns: the settings and their defaults.

Does not own: which settings are acceptable; see `PeerLink.Settings`.
-/

namespace PeerLink.Reputation

/-- The settings of reputation tracking. Scores are signed words of 32 bits. -/
structure Policy where
  /-- A peer whose score falls to this or below is dropped and banned. -/
  disconnectThreshold : Int32 := -20
  /-- Scores do not rise above this. -/
  maxScore : Int32 := 20
  /-- How long a dropped peer stays banned, in seconds. -/
  banPeriodSecs : Nat := 7200
  /-- With more peers tracked than this, entries that say nothing are dropped. -/
  maxTrackedPeers : Nat := 1024
deriving DecidableEq, Repr, Inhabited

end PeerLink.Reputation
