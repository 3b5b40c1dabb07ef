import PeerLink.Proofs.Toml.Numeral
import Mathlib.Data.List.TakeDrop

/-!
Contract: lines that assign an integer to a bare key, and headers of tables with a bare key.

Each reader of a part of such a line takes exactly that part, whatever follows it. So a reader of lines
takes one line after the other, and as each line has a character it never runs out of rounds.

Owns: how fields and headers are written, and how lines of them are read.

Does not own: the table that a line adds to; see `PeerLink.Proofs.Toml.Sheet`.
-/

namespace PeerLink.Toml

/-! ## Writing -/

/-- An integer under a key. -/
structure Field where
  key : String
  number : Int64
deriving DecidableEq, Repr

namespace Field

def text (field : Field) : String := field.key ++ " = " ++ toString field.number ++ "\n"

/-- What a reader is to make of a field. -/
def entry (field : Field) : String × Value := (field.key, .integer field.number.toInt)

end Field

def fieldsText (fields : List Field) : String := String.join (fields.map Field.text)

def headerText (key : String) : String := "[" ++ key ++ "]\n"

/-- A key that may stand without quotes. -/
def IsBare (key : String) : Prop :=
  key.toList ≠ [] ∧ ∀ char ∈ key.toList, isBareKeyChar char = true

instance (key : String) : Decidable (IsBare key) :=
  decidable_of_iff (key.toList ≠ [] ∧ key.toList.all isBareKeyChar = true)
    (and_congr Iff.rfl List.all_eq_true)

/-! ## Characters -/

/-- A character that neither is skipped in front of a line nor opens a header. -/
theorem isBlank_of_isBareKeyChar {char : Char} (bare : isBareKeyChar char = true) :
    isBlank char = false := by
  unfold isBlank
  rw [Bool.or_eq_false_iff, beq_eq_false_iff_ne, beq_eq_false_iff_ne]
  constructor <;> rintro rfl <;> exact absurd bare (by decide)

theorem skipTrivia_of_plain {first : Char} (noBlank : isBlank first = false)
    (noComment : first ≠ '#') (noFeed : first ≠ '\n') (noReturn : first ≠ '\r') (rounds : Nat)
    (rest : Rest) : skipTrivia rounds (first :: rest) = first :: rest := by
  cases rounds with
  | zero => rfl
  | succ rounds =>
      have blanks : skipBlanks (first :: rest) = first :: rest :=
        List.dropWhile_cons_of_neg (by rw [noBlank]; exact Bool.false_ne_true)
      have comment : skipComment (first :: rest) = first :: rest := by
        rw [skipComment]
        intro tail same
        exact noComment (List.cons.inj same).1
      have feed : lineFeed? (first :: rest) = none := by
        rw [lineFeed?]
        · intro tail same
          exact noFeed (List.cons.inj same).1
        · intro tail same
          exact noReturn (List.cons.inj same).1
      simp only [skipTrivia, blanks, comment, feed]

theorem exists_of_bare {chars : List Char} (nonempty : chars ≠ [])
    (bare : ∀ char ∈ chars, isBareKeyChar char = true) :
    ∃ first rest, chars = first :: rest ∧ isBareKeyChar first = true := by
  cases chars with
  | nil => exact absurd rfl nonempty
  | cons first rest => exact ⟨first, rest, rfl, bare first List.mem_cons_self⟩

theorem ne_of_isBareKeyChar {first char : Char} (bare : isBareKeyChar first = true)
    (other : isBareKeyChar char = false) : first ≠ char := by
  rintro rfl
  rw [bare] at other
  cases other

/-- Text that begins with characters of a key begins with no other one. -/
theorem append_ne_cons {chars : List Char} (nonempty : chars ≠ [])
    (bare : ∀ char ∈ chars, isBareKeyChar char = true) {char : Char}
    (other : isBareKeyChar char = false) (tail rest : Rest) : chars ++ tail ≠ char :: rest := by
  obtain ⟨first, others, rfl, isBare⟩ := exists_of_bare nonempty bare
  intro same
  exact ne_of_isBareKeyChar isBare other (List.cons.inj same).1

/-- Characters that start with one of a key have no blanks to skip. -/
theorem skipBlanks_of_bare {chars : List Char} (nonempty : chars ≠ [])
    (bare : ∀ char ∈ chars, isBareKeyChar char = true) (tail : Rest) :
    skipBlanks (chars ++ tail) = chars ++ tail := by
  obtain ⟨first, rest, rfl, isBare⟩ := exists_of_bare nonempty bare
  refine List.dropWhile_cons_of_neg ?_
  rw [isBlank_of_isBareKeyChar isBare]
  exact Bool.false_ne_true

/-- A span takes the characters of its kind, up to the first of another kind. -/
theorem span_append {kind : Char → Bool} {chars : List Char}
    (ofKind : ∀ char ∈ chars, kind char = true) {next : Char} (stops : kind next = false)
    (tail : Rest) : (chars ++ next :: tail).span kind = (chars, next :: tail) := by
  have stop : ¬ kind next = true := by
    rw [stops]
    exact Bool.false_ne_true
  rw [List.span_eq_takeWhile_dropWhile, List.takeWhile_append_of_pos ofKind,
    List.dropWhile_append_of_pos ofKind, List.takeWhile_cons_of_neg stop,
    List.dropWhile_cons_of_neg stop, List.append_nil]

/-! ## Parts of a line -/

theorem keyPart_bare {key : String} (bare : IsBare key) {next : Char}
    (stops : isBareKeyChar next = false) (tail : Rest) :
    keyPart (key.toList ++ next :: tail) = some (key, next :: tail) := by
  have taken := span_append bare.2 stops tail
  have text := String.ofList_toList (s := key)
  obtain ⟨first, rest, chars, isBare⟩ := exists_of_bare bare.1 bare.2
  have noQuote : ¬(first = doubleQuote ∨ first = singleQuote) := by
    rintro (rfl | rfl) <;> exact absurd isBare (by decide)
  rw [chars, List.cons_append] at taken
  rw [chars] at text
  simp only [chars, List.cons_append, keyPart, if_neg noQuote, taken, text]
  rfl

/-- A bare key that no dot follows is read as it stands, with the blanks after it. -/
theorem dottedKey_bare {key : String} (bare : IsBare key) {next : Char}
    (stops : isBareKeyChar next = false) {tail : Rest}
    (noDot : ∀ rest, skipBlanks (next :: tail) ≠ '.' :: rest) :
    dottedKey (key.toList ++ next :: tail) = some (⟨[], key⟩, skipBlanks (next :: tail)) := by
  have parts : keyParts (depthLimit - 1) (key.toList ++ next :: tail) =
      some ([key], skipBlanks (next :: tail)) := by
    show keyParts (78 + 1) (key.toList ++ next :: tail) = _
    rw [keyParts, skipBlanks_of_bare bare.1 bare.2, keyPart_bare bare stops]
    simp only [Option.bind_eq_bind, Option.bind_some]
    rfl
  rw [dottedKey, parts]
  rfl

theorem text_of_unquoted {first : Char} (noDouble : first ≠ doubleQuote)
    (noSingle : first ≠ singleQuote) (rest : Rest) : text (first :: rest) = none := by
  have noLineText (tail : Rest) : lineText (first :: tail) = none := by
    rw [lineText, if_neg noDouble, if_neg noSingle]
  have noBlock : (first == doubleQuote || first == singleQuote) = false := by
    rw [beq_false_of_ne noDouble, beq_false_of_ne noSingle]
    rfl
  unfold text
  split
  · rename_i same
    obtain ⟨rfl, rfl⟩ := List.cons.inj same
    rw [noBlock, Bool.and_false, if_neg Bool.false_ne_true]
    exact noLineText _
  · exact noLineText rest

theorem tokenValue_decimal (number : Int64) (rest : Rest) :
    tokenValue (decimal number.toInt ++ '\n' :: rest) =
      some (.integer number.toInt, '\n' :: rest) := by
  have tokenChars : ∀ char ∈ decimal number.toInt, isTokenChar char = true := by
    intro char member
    simp [isTokenChar, isBareKeyChar_decimal number.toInt char member]
  rw [tokenValue, span_append tokenChars (by decide)]
  simp only [tokenValue?_decimal, Option.map_some]
  rfl

theorem value_decimal (depth : Nat) (number : Int64) (rest : Rest) :
    value (depth + 1) (decimal number.toInt ++ '\n' :: rest) =
      some (.integer number.toInt, '\n' :: rest) := by
  have token := tokenValue_decimal number rest
  obtain ⟨first, others, written, bare⟩ :=
    exists_of_bare (decimal_ne_nil number.toInt) (isBareKeyChar_decimal number.toInt)
  have noText : textValue (decimal number.toInt ++ '\n' :: rest) = none := by
    rw [textValue, written, List.cons_append,
      text_of_unquoted (ne_of_isBareKeyChar bare (by decide))
        (ne_of_isBareKeyChar bare (by decide))]
    rfl
  have noBracket {char : Char} (other : isBareKeyChar char = false) (tail : Rest) :
      decimal number.toInt ++ '\n' :: rest ≠ char :: tail :=
    append_ne_cons (decimal_ne_nil number.toInt) (isBareKeyChar_decimal number.toInt) other _ tail
  rw [value, noText, token]
  · rfl
  · exact nofun
  · exact nofun
  · exact fun _ tail _ => noBracket (by decide) tail
  · exact fun _ tail _ => noBracket (by decide) tail

/-! ## Lines -/

namespace Field

/-- The characters of a field, in front of others. -/
theorem toList_text (field : Field) (rest : Rest) :
    field.text.toList ++ rest =
      field.key.toList ++ ' ' :: '=' :: ' ' :: (decimal field.number.toInt ++ '\n' :: rest) := by
  simp only [text, String.toList_append, List.append_assoc]
  rfl

theorem length_text_pos (field : Field) : 0 < field.text.toList.length := by
  simp only [text, String.toList_append, List.length_append]
  have feed : "\n".toList.length = 1 := rfl
  omega

/-- The draft after a line with a field. -/
def assign? (field : Field) (draft : Draft) : Option Draft :=
  (draft.document.assignIn draft.table [] field.key (.integer field.number.toInt)).map
    fun document => { draft with document := document }

theorem assignment_text {field : Field} (bare : IsBare field.key) (depth : Nat) (rest : Rest) :
    assignment (value (depth + 1)) (field.text.toList ++ rest) =
      some ((⟨[], field.key⟩, .integer field.number.toInt), '\n' :: rest) := by
  have key : dottedKey (field.text.toList ++ rest) =
      some (⟨[], field.key⟩, '=' :: ' ' :: (decimal field.number.toInt ++ '\n' :: rest)) := by
    rw [toList_text]
    exact dottedKey_bare bare (by decide) nofun
  have number : skipBlanks (' ' :: (decimal field.number.toInt ++ '\n' :: rest)) =
      decimal field.number.toInt ++ '\n' :: rest :=
    skipBlanks_of_bare (decimal_ne_nil field.number.toInt)
      (isBareKeyChar_decimal field.number.toInt) ('\n' :: rest)
  unfold assignment
  simp only [key, expect, Option.bind_eq_bind, Option.bind_some, if_true, number, value_decimal]
  rfl

theorem line_text {field : Field} (bare : IsBare field.key) (draft : Draft) (rest : Rest) :
    line draft (field.text.toList ++ rest) = (field.assign? draft).map (·, rest) := by
  have read := assignment_text bare (depthLimit - 2) rest
  have noHeader (tail : Rest) : field.text.toList ++ rest ≠ '[' :: tail := by
    rw [toList_text]
    exact append_ne_cons bare.1 bare.2 (by decide) _ tail
  rw [line]
  · unfold assignmentLine assign?
    rw [show depthLimit - 1 = depthLimit - 2 + 1 from rfl, read]
    simp only [Option.bind_eq_bind, Option.bind_some]
    cases draft.document.assignIn draft.table [] field.key (.integer field.number.toInt) <;> rfl
  · exact fun tail => noHeader ('[' :: tail)
  · exact noHeader

theorem skipTrivia_text {field : Field} (bare : IsBare field.key) (rounds : Nat) (rest : Rest) :
    skipTrivia rounds (field.text.toList ++ rest) = field.text.toList ++ rest := by
  obtain ⟨first, others, chars, isBare⟩ := exists_of_bare bare.1 bare.2
  rw [toList_text, chars]
  exact skipTrivia_of_plain (isBlank_of_isBareKeyChar isBare) (ne_of_isBareKeyChar isBare (by decide))
    (ne_of_isBareKeyChar isBare (by decide)) (ne_of_isBareKeyChar isBare (by decide)) _ _

end Field

theorem toList_headerText (key : String) (rest : Rest) :
    (headerText key).toList ++ rest = '[' :: (key.toList ++ ']' :: '\n' :: rest) := by
  simp only [headerText, String.toList_append, List.append_assoc]
  rfl

theorem line_headerText {key : String} (bare : IsBare key) (draft : Draft) (rest : Rest) :
    line draft ((headerText key).toList ++ rest) =
      (draft.document.openTable [] key).map fun document => (⟨document, [key]⟩, rest) := by
  have noElement (tail : Rest) : key.toList ++ ']' :: '\n' :: rest ≠ '[' :: tail :=
    append_ne_cons bare.1 bare.2 (by decide) _ tail
  have name : dottedKey (key.toList ++ ']' :: '\n' :: rest) = some (⟨[], key⟩, ']' :: '\n' :: rest) :=
    dottedKey_bare bare (by decide) nofun
  rw [toList_headerText, line]
  · unfold tableHeader
    simp only [name, expect, Option.bind_eq_bind, Option.bind_some, if_true]
    cases draft.document.openTable [] key <;> rfl
  · exact noElement

/-! ## All lines -/

/-- The draft after lines with fields. -/
def assignAll? : List Field → Draft → Option Draft
  | [], draft => some draft
  | field :: rest, draft => (field.assign? draft).bind (assignAll? rest)

theorem lines_succ {rest : Rest} (plain : skipTrivia rest.length rest = rest)
    (nonempty : rest ≠ []) (rounds : Nat) (draft : Draft) :
    lines (rounds + 1) draft rest =
      (line draft rest).bind fun read => lines rounds read.1 read.2 := by
  rw [lines, plain]
  split
  · exact absurd rfl nonempty
  · rfl

theorem toList_fieldsText_cons (field : Field) (others : List Field) (rest : Rest) :
    (fieldsText (field :: others)).toList ++ rest =
      field.text.toList ++ ((fieldsText others).toList ++ rest) := by
  simp [fieldsText, String.toList_join]

/-- A reader that has rounds enough for all characters goes through lines with fields and has enough
for what follows them. -/
theorem lines_fieldsText {fields : List Field} (bare : ∀ field ∈ fields, IsBare field.key)
    (draft : Draft) (rest : Rest) (rounds : Nat)
    (enough : ((fieldsText fields).toList ++ rest).length ≤ rounds) :
    ∃ left, rest.length ≤ left ∧
      lines rounds draft ((fieldsText fields).toList ++ rest) =
        (assignAll? fields draft).bind fun later => lines left later rest := by
  induction fields generalizing draft rounds with
  | nil => exact ⟨rounds, enough, rfl⟩
  | cons field others inductionHypothesis =>
      have isBare := bare field List.mem_cons_self
      have positive := field.length_text_pos
      rw [toList_fieldsText_cons, List.length_append] at enough
      obtain ⟨rounds, rfl⟩ : ∃ fewer, rounds = fewer + 1 := ⟨rounds - 1, by omega⟩
      have step : lines (rounds + 1) draft
          (field.text.toList ++ ((fieldsText others).toList ++ rest)) =
            (field.assign? draft).bind fun later =>
              lines rounds later ((fieldsText others).toList ++ rest) := by
        have nonempty : field.text.toList ++ ((fieldsText others).toList ++ rest) ≠ [] :=
          List.append_ne_nil_of_left_ne_nil (List.ne_nil_of_length_pos positive) _
        rw [lines_succ (Field.skipTrivia_text isBare _ _) nonempty, Field.line_text isBare,
          Option.bind_map]
        rfl
      rw [toList_fieldsText_cons, step, assignAll?]
      cases field.assign? draft with
      | none => exact ⟨rest.length, Nat.le_refl _, rfl⟩
      | some later =>
          exact inductionHypothesis (fun other member => bare other (List.mem_cons_of_mem _ member))
            later rounds (by omega)

theorem lines_nil (rounds : Nat) (draft : Draft) : lines rounds draft [] = some draft := by
  cases rounds <;> rfl

theorem lines_headerText {key : String} (bare : IsBare key) (draft : Draft) (rest : Rest)
    (rounds : Nat) :
    lines (rounds + 1) draft ((headerText key).toList ++ rest) =
      (draft.document.openTable [] key).bind fun document =>
        lines rounds ⟨document, [key]⟩ rest := by
  have plain : skipTrivia ((headerText key).toList ++ rest).length
      ((headerText key).toList ++ rest) = (headerText key).toList ++ rest := by
    rw [toList_headerText]
    exact skipTrivia_of_plain (by decide) (by decide) (by decide) (by decide) _ _
  have nonempty : (headerText key).toList ++ rest ≠ [] := by
    rw [toList_headerText]
    exact List.cons_ne_nil _ _
  rw [lines_succ plain nonempty, line_headerText bare, Option.bind_map]
  rfl

end PeerLink.Toml
