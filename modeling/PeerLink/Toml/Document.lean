import PeerLink.Toml.Scalar
import PeerLink.Toml.Table
import PeerLink.Toml.Text

/-!
Contract: reading a TOML document.

A document is read line by line into one table. Values in brackets and braces may be nested, and
keys may have parts, up to a limit.

Owns: keys, values, lines and the whole document.

Does not own: what a document must hold.
-/

namespace PeerLink.Toml

/-- Values nest less deep than this, and keys have fewer parts. -/
def depthLimit : Nat := 80

/-! ## Keys -/

/-- One part of a key: bare, or quoted on one line. -/
def keyPart : Reader String
  | [] => none
  | first :: rest =>
      if first = doubleQuote ∨ first = singleQuote then
        (lineText (first :: rest)).map (Prod.map String.ofList id)
      else
        let (part, left) := (first :: rest).span isBareKeyChar
        if part.isEmpty then none else some (String.ofList part, left)

/-- The parts of a key, with blanks around each of them. -/
def keyParts : Nat → Reader (List String)
  | 0, _ => none
  | rounds + 1, rest => do
      let (part, rest) ← keyPart (skipBlanks rest)
      match skipBlanks rest with
      | '.' :: rest => do
          let (parts, rest) ← keyParts rounds rest
          pure (part :: parts, rest)
      | rest => pure ([part], rest)

/-- A dotted key: the parts on the way, and the last part. -/
structure DottedKey where
  path : List String
  key : String
deriving DecidableEq, Repr

/-- A key, with blanks around it. The limit on its parts is the limit on the rounds. -/
def dottedKey (rest : Rest) : Option (DottedKey × Rest) := do
  let (parts, rest) ← keyParts (depthLimit - 1) rest
  let key ← parts.getLast?
  pure (⟨parts.dropLast, key⟩, rest)

/-! ## Values -/

/-- The value that a token writes. -/
def tokenValue? (token : List Char) : Option Value :=
  if token = "true".toList then some (.boolean true)
  else if token = "false".toList then some (.boolean false)
  else
    match integer? token with
    | some number => some (.integer number)
    | none =>
        if isFloat token then some .float
        else if isDateTime token then some .dateTime
        else none

/-- A value that is one token. A date may have its time after a single space. -/
def tokenValue (rest : Rest) : Option (Value × Rest) :=
  let (token, left) := rest.span isTokenChar
  match left with
  | ' ' :: digit :: later =>
      if isDate token && digit.isDigit then
        let (time, left) := (digit :: later).span isTokenChar
        if isTime true time then some (.dateTime, left) else none
      else (tokenValue? token).map fun value => (value, left)
  | _ => (tokenValue? token).map fun value => (value, left)

/-- The items of an array after its bracket or a comma, up to the closing bracket. -/
def arrayItems (item : Reader Value) : Nat → Reader (List Value)
  | 0, _ => none
  | rounds + 1, rest =>
      match skipTrivia rest.length rest with
      | ']' :: rest => some ([], rest)
      | rest => do
          let (value, rest) ← item rest
          match skipTrivia rest.length rest with
          | ']' :: rest => pure ([value], rest)
          | ',' :: rest => do
              let (values, rest) ← arrayItems item rounds rest
              pure (value :: values, rest)
          | _ => none

/-- A key, an equals sign and a value, with blanks around each of them. -/
def assignment (item : Reader Value) (rest : Rest) : Option ((DottedKey × Value) × Rest) := do
  let (key, rest) ← dottedKey rest
  let rest ← expect '=' rest
  let (value, rest) ← item (skipBlanks rest)
  pure ((key, value), skipBlanks rest)

/-- The assignments of an inline table after its brace or a comma, up to the closing brace. -/
def inlineEntries (item : Reader Value) : Nat → Entries → Reader Entries
  | 0, _, _ => none
  | rounds + 1, entries, rest => do
      let ((key, value), rest) ← assignment item rest
      let entries ← entries.assign key.path key.key value .inline
      match rest with
      | ',' :: rest => inlineEntries item rounds entries rest
      | '\x7d' :: rest => pure (entries, rest)
      | _ => none

/-- An inline table after its brace. -/
def inlineTable (item : Reader Value) (rest : Rest) : Option (Entries × Rest) :=
  match skipBlanks rest with
  | '\x7d' :: rest => some ([], rest)
  | rest => inlineEntries item rest.length [] rest

def textValue (rest : Rest) : Option (Value × Rest) :=
  (text rest).map (Prod.map (fun chars => .text (String.ofList chars)) id)

/-- A value in which brackets and braces nest at most so deep. -/
def value : Nat → Reader Value
  | 0, '[' :: _ => none
  | 0, '\x7b' :: _ => none
  | depth + 1, '[' :: rest =>
      (arrayItems (value depth) (rest.length + 1) rest).map (Prod.map .array id)
  | depth + 1, '\x7b' :: rest =>
      (inlineTable (value depth) rest).map (Prod.map (.table .inline) id)
  | _, rest => textValue rest <|> tokenValue rest

/-! ## Lines -/

/-- A document that is being read: its tables so far, and the path of the table that assignments now
go to. -/
structure Draft where
  document : Entries := []
  table : List String := []
deriving Repr

/-- The header of a table after its bracket. -/
def tableHeader (draft : Draft) (rest : Rest) : Option (Draft × Rest) := do
  let (key, rest) ← dottedKey rest
  let rest ← expect ']' rest
  let document ← draft.document.openTable key.path key.key
  pure (⟨document, key.path ++ [key.key]⟩, ← endLine rest)

/-- The header of an element of an array of tables after its brackets. -/
def elementHeader (draft : Draft) (rest : Rest) : Option (Draft × Rest) := do
  let (key, rest) ← dottedKey rest
  let rest ← expect ']' rest
  let rest ← expect ']' rest
  let document ← draft.document.openElement key.path key.key
  pure (⟨document, key.path ++ [key.key]⟩, ← endLine rest)

/-- A line with an assignment. -/
def assignmentLine (draft : Draft) (rest : Rest) : Option (Draft × Rest) := do
  let ((key, value), rest) ← assignment (value (depthLimit - 1)) rest
  let document ← draft.document.assignIn draft.table key.path key.key value
  pure ({ draft with document := document }, ← endLine rest)

/-- One line that is not blank. -/
def line (draft : Draft) : Rest → Option (Draft × Rest)
  | '[' :: '[' :: rest => elementHeader draft rest
  | '[' :: rest => tableHeader draft rest
  | rest => assignmentLine draft rest

/-- All lines. Every round takes a character. -/
def lines : Nat → Draft → Rest → Option Draft
  | 0, draft, rest => if rest.isEmpty then some draft else none
  | rounds + 1, draft, rest =>
      match skipTrivia rest.length rest with
      | [] => some draft
      | rest => do
          let (draft, rest) ← line draft rest
          lines rounds draft rest

/-- The mark that may stand at the very start of a document. -/
def byteOrderMark : Char := '\uFEFF'

/-- Reads a document. There is no answer for a text that is none. -/
def read? (document : String) : Option Entries :=
  let chars := match document.toList with
    | first :: rest => if first = byteOrderMark then rest else first :: rest
    | [] => []
  (lines chars.length {} chars).map Draft.document

end PeerLink.Toml
