import PeerLink.Reputation.Policy

/-!
Contract: the settings of peer connections.

Owns: the settings, their defaults, and the three rules that acceptable settings obey, with the
order in which a violation is reported.

Does not own: reading settings from a document.
-/

namespace PeerLink

structure Settings where
  /-- How many requests of one method may be on the wire at once, per peer. -/
  maxConcurrentRequests : Nat := 2
  /-- How long a goodbye may take, in milliseconds. -/
  goodbyeTimeoutMs : Nat := 1000
  reputation : Reputation.Policy := {}
deriving DecidableEq, Repr, Inhabited

inductive SettingsViolation where
  | noConcurrency
  | thresholdNotNegative (threshold : Int32)
  | maxScoreNotPositive (score : Int32)
deriving DecidableEq, Repr

def SettingsViolation.text : SettingsViolation → String
  | noConcurrency => "Invalid config: max_concurrent_requests must be at least 1"
  | thresholdNotNegative threshold =>
      "Invalid config: reputation.disconnect_threshold must be negative, got " ++
        toString threshold.toInt
  | maxScoreNotPositive score =>
      "Invalid config: reputation.max_score must be positive, got " ++ toString score.toInt

namespace Settings

/-- The first rule that the settings break, if they break one. -/
def violation? (settings : Settings) : Option SettingsViolation :=
  if settings.maxConcurrentRequests = 0 then some .noConcurrency
  else if 0 ≤ settings.reputation.disconnectThreshold then
    some (.thresholdNotNegative settings.reputation.disconnectThreshold)
  else if settings.reputation.maxScore < 1 then
    some (.maxScoreNotPositive settings.reputation.maxScore)
  else none

end Settings

end PeerLink
