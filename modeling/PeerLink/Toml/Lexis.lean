/-!
Contract: the characters of a TOML document.

A reader takes the characters that are left and answers with what it read and what is left after
that, or with nothing if they do not start as they must.

Owns: the character classes, blanks, line ends, comments and digits.

Does not own: values and keys.
-/

namespace PeerLink.Toml

abbrev Rest := List Char

abbrev Reader (α : Type) := Rest → Option (α × Rest)

def isBlank (char : Char) : Bool := char == ' ' || char == '\t'

/-- The characters that comments and single-line literal texts may hold: the tab, the visible ASCII
characters with the space, and everything beyond ASCII. -/
def isTextChar (char : Char) : Bool :=
  char == '\t' || (0x20 ≤ char.toNat && char.toNat ≤ 0x7E) || 0x80 ≤ char.toNat

/-- Letters, digits and the other characters of a bare key. -/
def isBareKeyChar (char : Char) : Bool := char.isAlphanum || char == '_' || char == '-'

/-- The characters of numbers, dates, times and words. None of them may follow a value directly, so
such a value always takes as many of them as there are. -/
def isTokenChar (char : Char) : Bool :=
  isBareKeyChar char || char == '+' || char == '.' || char == ':'

def skipBlanks (rest : Rest) : Rest := rest.dropWhile isBlank

def expect (char : Char) : Rest → Option Rest
  | first :: rest => if first = char then some rest else none
  | [] => none

/-- Skips the end of a line: a line feed, or a carriage return with one. -/
def lineFeed? : Rest → Option Rest
  | '\n' :: rest => some rest
  | '\r' :: '\n' :: rest => some rest
  | _ => none

def skipComment : Rest → Rest
  | '#' :: rest => rest.dropWhile isTextChar
  | rest => rest

/-- Skips what may follow at the end of a line: blanks, a comment, and the line end or the end of the
document. -/
def endLine (rest : Rest) : Option Rest :=
  match skipComment (skipBlanks rest) with
  | [] => some []
  | left => lineFeed? left

/-- Skips blanks, comments and line ends, as far as they go. Every round takes a character. -/
def skipTrivia : Nat → Rest → Rest
  | 0, rest => rest
  | rounds + 1, rest =>
      let left := skipComment (skipBlanks rest)
      match lineFeed? left with
      | some later => skipTrivia rounds later
      | none => left

/-- The value of a digit in any base up to sixteen. -/
def digitValue (char : Char) : Nat :=
  if char.isDigit then char.toNat - '0'.toNat else char.toLower.toNat - 'a'.toNat + 10

/-- Whether a character is a digit of a base up to sixteen. -/
def isDigitOf (base : Nat) (char : Char) : Bool :=
  (char.isDigit || ('a' ≤ char.toLower && char.toLower ≤ 'f')) && digitValue char < base

/-- The number that digits write, the highest first. -/
def numberOf (base : Nat) (digits : List Char) : Nat :=
  digits.foldl (fun number digit => number * base + digitValue digit) 0

end PeerLink.Toml
