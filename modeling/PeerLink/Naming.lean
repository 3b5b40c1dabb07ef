/-!
Contract: closed sets of names, read exactly as they are written.

Owns: the look-up of a name in a listed set and the text that refuses a name outside it.

Does not own: any particular set; each domain type lists its own names.
-/

namespace PeerLink.Naming

/-- The first listed value with exactly this name. -/
def find? {α : Type} (name : α → String) (listed : List α) (given : String) : Option α :=
  listed.find? fun value => name value == given

/-- The text that refuses `given`, with every name that would have been taken, in order. -/
def refusal {α : Type} (name : α → String) (listed : List α) (given : String) : String :=
  "unknown variant `" ++ given ++ "`, expected one of " ++
    String.intercalate ", " (listed.map fun value => "`" ++ name value ++ "`")

end PeerLink.Naming
