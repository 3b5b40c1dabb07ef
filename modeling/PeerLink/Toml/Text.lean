import PeerLink.Toml.Lexis

/-!
Contract: quoted texts of a TOML document.

There are four forms: in double quotes with escapes, in single quotes without, and each of them over
several lines in three quotes of its kind. A run of quotes at the end of a text over several lines
may have five, of which the first two belong to the text.

Owns: the four forms and the escapes.

Does not own: where a text may stand.
-/

namespace PeerLink.Toml

def doubleQuote : Char := '\x22'

def singleQuote : Char := '\x27'

/-- The character that a one-letter escape stands for. -/
def shortEscape? : Char → Option Char
  | 'b' => some '\x08'
  | 't' => some '\t'
  | 'n' => some '\n'
  | 'f' => some '\x0c'
  | 'r' => some '\r'
  | '\x22' => some doubleQuote
  | '\\' => some '\\'
  | _ => none

/-- The character with a code, if the code is that of one: surrogates and codes out of range are
not. -/
def charOfCode? (code : Nat) : Option Char :=
  if code.isValidChar then some (Char.ofNat code) else none

/-- Where a reader stands inside a text with escapes. -/
inductive EscapeState where
  | plain
  | escaped
  /-- Inside a numeric escape: how many digits are missing, and the code so far. -/
  | code (missing : Nat) (sofar : Nat)
deriving DecidableEq, Repr

/-- Takes a character of an escape. The answer is the later state and the character that the escape
stands for once it is complete. -/
def EscapeState.feed? : EscapeState → Char → Option (EscapeState × List Char)
  | .plain, _ => none
  | .escaped, 'u' => some (.code 4 0, [])
  | .escaped, 'U' => some (.code 8 0, [])
  | .escaped, char => (shortEscape? char).map fun meant => (.plain, [meant])
  | .code missing sofar, char =>
      if isDigitOf 16 char then
        let code := sofar * 16 + digitValue char
        if missing ≤ 1 then (charOfCode? code).map fun meant => (.plain, [meant])
        else some (.code (missing - 1) code, [])
      else none

/-! ## On one line -/

/-- The rest of a text in single quotes; `taken` is what was read of it, the last first. -/
def literalBody (taken : List Char) : Reader (List Char)
  | [] => none
  | char :: rest =>
      if char = singleQuote then some (taken.reverse, rest)
      else if isTextChar char then literalBody (char :: taken) rest
      else none

/-- The rest of a text in double quotes; `taken` is what was read of it, the last first. -/
def basicBody (state : EscapeState) (taken : List Char) : Reader (List Char)
  | [] => none
  | char :: rest =>
      match state with
      | .plain =>
          if char = doubleQuote then some (taken.reverse, rest)
          else if char = '\\' then basicBody .escaped taken rest
          else if isTextChar char then basicBody .plain (char :: taken) rest
          else none
      | state =>
          match state.feed? char with
          | some (later, meant) => basicBody later (meant ++ taken) rest
          | none => none

/-! ## Over several lines -/

/-- Where a reader stands inside a text over several lines. -/
inductive BlockState where
  /-- Between characters, or inside an escape. -/
  | inside (state : EscapeState)
  /-- After a carriage return, which a line feed must follow. -/
  | carriageReturn
  /-- After some quotes in a row. -/
  | quotes (count : Nat)
  /-- After a backslash and blanks: the line must end. -/
  | folding
  /-- The same, after a carriage return. -/
  | foldingReturn
  /-- After a folded line end: blanks and line ends do not count. -/
  | folded
  /-- The same, after a carriage return. -/
  | foldedReturn
deriving DecidableEq, Repr

/-- Takes a character that stands for itself or opens something. -/
def BlockState.feedPlain? (quote : Char) (escapes : Bool) (char : Char) :
    Option (BlockState × List Char) :=
  if char = quote then some (.quotes 1, [])
  else if char = '\n' then some (.inside .plain, ['\n'])
  else if char = '\r' then some (.carriageReturn, [])
  else if escapes && char == '\\' then some (.inside .escaped, [])
  else if isTextChar char then some (.inside .plain, [char])
  else none

/-- Takes a character, in any state but that after three quotes or more. The answer is the later
state and the characters that are now known to belong to the text, the last first. -/
def BlockState.feed? (quote : Char) (escapes : Bool) :
    BlockState → Char → Option (BlockState × List Char)
  | .inside .plain, char => feedPlain? quote escapes char
  | .inside .escaped, char =>
      if isBlank char then some (.folding, [])
      else if char = '\n' then some (.folded, [])
      else if char = '\r' then some (.foldingReturn, [])
      else (EscapeState.feed? .escaped char).map (Prod.map .inside id)
  | .inside state, char => (state.feed? char).map (Prod.map .inside id)
  | .carriageReturn, char => if char = '\n' then some (.inside .plain, ['\n']) else none
  | .quotes count, char =>
      if char = quote then some (.quotes (count + 1), [])
      else (feedPlain? quote escapes char).map
        (Prod.map id fun meant => meant ++ List.replicate count quote)
  | .folding, char =>
      if isBlank char then some (.folding, [])
      else if char = '\n' then some (.folded, [])
      else if char = '\r' then some (.foldingReturn, [])
      else none
  | .foldingReturn, char => if char = '\n' then some (.folded, []) else none
  | .folded, char =>
      if isBlank char || char == '\n' then some (.folded, [])
      else if char = '\r' then some (.foldedReturn, [])
      else feedPlain? quote escapes char
  | .foldedReturn, char => if char = '\n' then some (.folded, []) else none

/-- The text that ends with this many quotes, if they are enough to end it. -/
def closeBlock? (quote : Char) (taken : List Char) : BlockState → Option (List Char)
  | .quotes count =>
      if 3 ≤ count then some (taken.reverse ++ List.replicate (count - 3) quote) else none
  | _ => none

/-- The rest of a text over several lines; `taken` is what was read of it, the last first. It ends
after five quotes in a row, or after three or four that no further one follows. -/
def blockBody (quote : Char) (escapes : Bool) (state : BlockState) (taken : List Char) :
    Reader (List Char)
  | [] => (closeBlock? quote taken state).map fun text => (text, [])
  | char :: rest =>
      match closeBlock? quote taken state with
      | some text =>
          if char = quote && state != .quotes 5 then
            match state.feed? quote escapes char with
            | some (later, meant) => blockBody quote escapes later (meant ++ taken) rest
            | none => none
          else some (text, char :: rest)
      | none =>
          match state.feed? quote escapes char with
          | some (later, meant) => blockBody quote escapes later (meant ++ taken) rest
          | none => none

/-- The rest of a text over several lines, whose first line end does not count. -/
def block (quote : Char) (escapes : Bool) (rest : Rest) : Option (List Char × Rest) :=
  blockBody quote escapes (.inside .plain) [] ((lineFeed? rest).getD rest)

/-! ## All forms -/

/-- A quoted text on one line. -/
def lineText : Reader (List Char)
  | first :: rest =>
      if first = doubleQuote then basicBody .plain [] rest
      else if first = singleQuote then literalBody [] rest
      else none
  | [] => none

/-- A quoted text of any form: three quotes in a row always open one over several lines. -/
def text : Reader (List Char)
  | first :: second :: third :: rest =>
      if first = second && second = third && (first == doubleQuote || first == singleQuote) then
        block first (first == doubleQuote) rest
      else lineText (first :: second :: third :: rest)
  | rest => lineText rest

end PeerLink.Toml
