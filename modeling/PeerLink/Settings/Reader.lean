import PeerLink.Settings
import PeerLink.Toml.Document

/-!
Contract: settings read from a TOML document.

Settings that are missing keep their defaults, and keys of no setting do not matter. The settings of
reputation tracking may be a table, or an array with the values in order.

Owns: reading settings, and why a text has none: it is no document that fits, or the settings break a
rule.

Does not own: the rules.
-/

namespace PeerLink

/-- Why a text has no acceptable settings. -/
inductive SettingsError where
  /-- The text is no document, or a setting has a value of another type or out of its range. -/
  | malformed
  | violation (violation : SettingsViolation)
deriving DecidableEq, Repr

/-- A type of setting: the integers it takes, in their range. -/
abbrev SettingType (α : Type) := Int → Option α

namespace SettingType

/-- The integers that are not negative. -/
def natural : SettingType Nat := fun number => if 0 ≤ number then some number.toNat else none

/-- The integers of 32 bits. -/
def word : SettingType Int32 := fun number =>
  if Int32.minValue.toInt ≤ number ∧ number ≤ Int32.maxValue.toInt then some (Int32.ofInt number)
  else none

end SettingType

/-- A setting, given a value or none. -/
def readSetting {α : Type} (type : SettingType α) (default : α) : Option Toml.Value → Option α
  | none => some default
  | some (.integer number) => type number
  | some _ => none

namespace Reputation.Policy

def names : List String :=
  ["disconnect_threshold", "max_score", "ban_period_secs", "max_tracked_peers"]

/-- The settings, given a value or none for each of their names, in order. -/
def ofValues? (values : List (Option Toml.Value)) : Option Policy := do
  let default : Policy := {}
  let value (place : Nat) : Option Toml.Value := (values[place]?).join
  pure
    { disconnectThreshold := ← readSetting .word default.disconnectThreshold (value 0)
      maxScore := ← readSetting .word default.maxScore (value 1)
      banPeriodSecs := ← readSetting .natural default.banPeriodSecs (value 2)
      maxTrackedPeers := ← readSetting .natural default.maxTrackedPeers (value 3) }

/-- The settings that a value of the document holds. A date counts as a table without any of the
names. -/
def ofValue? : Option Toml.Value → Option Policy
  | none | some .dateTime => some {}
  | some (.table _ entries) => ofValues? (names.map fun name => Toml.Entries.find? entries name)
  | some (.array items) => ofValues? (items.map some)
  | some _ => none

end Reputation.Policy

namespace Settings

def ofEntries? (entries : Toml.Entries) : Option Settings := do
  let default : Settings := {}
  pure
    { maxConcurrentRequests :=
        ← readSetting .natural default.maxConcurrentRequests (entries.find? "max_concurrent_requests")
      goodbyeTimeoutMs :=
        ← readSetting .natural default.goodbyeTimeoutMs (entries.find? "goodbye_timeout_ms")
      reputation := ← Reputation.Policy.ofValue? (entries.find? "reputation") }

/-- Reads settings from a document and holds them against the rules. A fault of the document comes
before any broken rule. -/
def read (document : String) : Except SettingsError Settings :=
  match (Toml.read? document).bind ofEntries? with
  | none => .error .malformed
  | some settings =>
      match settings.violation? with
      | some violation => .error (.violation violation)
      | none => .ok settings

end Settings

end PeerLink
