/-!
Contract: one line of a structured log.

Owns: severities with their names, and the line as level, message and ordered fields.

Does not own: who writes which line.
-/

namespace PeerLink

inductive Severity where
  | trace | debug | warn | error
deriving DecidableEq, Repr

def Severity.name : Severity → String
  | trace => "trace"
  | debug => "debug"
  | warn => "warn"
  | error => "error"

/-- A log line: its fields are texts, in the order they are written. -/
structure LogLine where
  severity : Severity
  message : String
  fields : List (String × String)
deriving DecidableEq, Repr

end PeerLink
