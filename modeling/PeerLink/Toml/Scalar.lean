import PeerLink.Toml.Lexis

/-!
Contract: numbers, dates, times and words of a TOML document.

Each of them is one token, which is read as a whole.

Owns: which tokens are integers, floating-point numbers, dates and times, and the value of an
integer.

Does not own: values of the other kinds beyond their being well-formed and in range; no reader of
this library asks for them.
-/

namespace PeerLink.Toml

/-! ## Digits -/

/-- Digits with single underscores between them, read as the digits alone. -/
def grouped? (isDigit : Char → Bool) : List Char → Option (List Char)
  | [] => none
  | [digit] => if isDigit digit then some [digit] else none
  | digit :: '_' :: rest => if isDigit digit then (digit :: ·) <$> grouped? isDigit rest else none
  | digit :: rest => if isDigit digit then (digit :: ·) <$> grouped? isDigit rest else none

/-- The digits of a decimal number without a sign: no zero in front of others. -/
def decimal? (token : List Char) : Option (List Char) :=
  match token with
  | ['0'] => some ['0']
  | '0' :: _ => none
  | _ => grouped? Char.isDigit token

/-- Takes a sign off a token; the flag says whether it was a minus. -/
def unsigned : List Char → Bool × List Char
  | '-' :: rest => (true, rest)
  | '+' :: rest => (false, rest)
  | token => (false, token)

/-! ## Integers -/

/-- An integer in range: integers are signed words of 64 bits. -/
def inRange? (number : Int) : Option Int :=
  if Int64.minValue.toInt ≤ number ∧ number ≤ Int64.maxValue.toInt then some number else none

/-- The integer that a token writes. Only decimal numbers may have a sign. -/
def integer? (token : List Char) : Option Int :=
  match token with
  | '0' :: 'x' :: digits => natural? 16 digits
  | '0' :: 'o' :: digits => natural? 8 digits
  | '0' :: 'b' :: digits => natural? 2 digits
  | _ => do
      let (negative, rest) := unsigned token
      let number : Int := numberOf 10 (← decimal? rest)
      inRange? (if negative then -number else number)
where
  /-- The integer that grouped digits of a base write. -/
  natural? (base : Nat) (digits : List Char) : Option Int := do
    inRange? (numberOf base (← grouped? (isDigitOf base) digits))

/-! ## Floating-point numbers -/

/-- Whether `number * 10 ^ exponent`, rounded to the nearest double, is infinite: it is so from half
a step above the largest double on. Sizes far from that are told apart by the count of digits. -/
def overflowsDouble (number : Nat) (exponent : Int) : Bool :=
  let bound := Nat.pow 2 1024 - Nat.pow 2 970
  let size : Int := (Nat.toDigits 10 number).length + exponent
  if number = 0 ∨ size < 300 then false
  else if 320 < size then true
  else if 0 ≤ exponent then bound ≤ number * Nat.pow 10 exponent.toNat
  else bound * Nat.pow 10 (-exponent).toNat ≤ number

/-- The exponent that follows the letter `e` in a token. -/
def exponent? : List Char → Option Int
  | [] => some 0
  | letter :: rest =>
      if letter = 'e' ∨ letter = 'E' then do
        let (negative, token) := unsigned rest
        let size : Int := numberOf 10 (← grouped? Char.isDigit token)
        pure (if negative then -size else size)
      else none

/-- The digits that follow the point in a token, and what is left after them. -/
def fraction? : List Char → Option (List Char × List Char)
  | '.' :: rest => do
      let (digits, left) := rest.span fun char => char != 'e' && char != 'E'
      pure (← grouped? Char.isDigit digits, left)
  | rest => some ([], rest)

/-- Whether a token is a floating-point number. One that is positive and rounds to infinity is
refused. -/
def isFloat (token : List Char) : Bool :=
  let (negative, size) := unsigned token
  if size = "inf".toList ∨ size = "nan".toList then true
  else
    let (whole, tail) := size.span fun char => char != '.' && char != 'e' && char != 'E'
    let read : Option Bool := do
      let digits ← decimal? whole
      let (fraction, left) ← fraction? tail
      let exponent ← exponent? left
      pure (!tail.isEmpty && (negative ||
        !overflowsDouble (numberOf 10 (digits ++ fraction)) (exponent - fraction.length)))
    read.getD false

/-! ## Dates and times -/

/-- A number of exactly so many digits. -/
def digits? : Nat → Reader Nat
  | count, rest =>
      let digits := rest.take count
      if digits.length = count ∧ digits.all Char.isDigit then
        some (numberOf 10 digits, rest.drop count)
      else none

/-- Whether a year has a 29th of February. -/
def isLeapYear (year : Nat) : Bool := year % 4 = 0 && (year % 100 != 0 || year % 400 = 0)

/-- The number of days in a month; there is none in a month that does not exist. -/
def daysInMonth (year month : Nat) : Nat :=
  match month with
  | 2 => if isLeapYear year then 29 else 28
  | 4 | 6 | 9 | 11 => 30
  | 1 | 3 | 5 | 7 | 8 | 10 | 12 => 31
  | _ => 0

/-- Skips a date: year, month and day, of a day that exists. -/
def date? (rest : Rest) : Option Rest := do
  let (year, rest) ← digits? 4 rest
  let rest ← expect '-' rest
  let (month, rest) ← digits? 2 rest
  let rest ← expect '-' rest
  let (day, rest) ← digits? 2 rest
  if 1 ≤ day ∧ day ≤ daysInMonth year month then some rest else none

/-- Skips a fraction of a second, if there is one. -/
def secondFraction? : Rest → Option Rest
  | '.' :: rest =>
      match rest with
      | first :: _ => if first.isDigit then some (rest.dropWhile Char.isDigit) else none
      | [] => none
  | rest => some rest

/-- Skips a time of day. A minute may have a leap second. -/
def time? (rest : Rest) : Option Rest := do
  let (hour, rest) ← digits? 2 rest
  let rest ← expect ':' rest
  let (minute, rest) ← digits? 2 rest
  let rest ← expect ':' rest
  let (second, rest) ← digits? 2 rest
  if hour ≤ 23 ∧ minute ≤ 59 ∧ second ≤ 60 then secondFraction? rest else none

/-- Whether this is all of an offset from universal time, or nothing. -/
def isOffset : Rest → Bool
  | [] | ['Z'] | ['z'] => true
  | sign :: rest =>
      (sign == '+' || sign == '-') &&
        (do
          let (hour, rest) ← digits? 2 rest
          let rest ← expect ':' rest
          let (minute, rest) ← digits? 2 rest
          pure (hour ≤ 23 && minute ≤ 59 && rest.isEmpty)).getD false

def isDate (token : List Char) : Bool := date? token == some []

/-- Whether a token is a time of day, with an offset if `offset` allows one. -/
def isTime (offset : Bool) (token : List Char) : Bool :=
  match time? token with
  | some rest => rest.isEmpty || (offset && isOffset rest)
  | none => false

/-- Whether a token is a time of day, a date, or both with a letter between them. -/
def isDateTime (token : List Char) : Bool :=
  isTime false token || isDate token ||
    match date? token with
    | some (letter :: rest) => (letter == 'T' || letter == 't') && isTime true rest
    | _ => false

end PeerLink.Toml
