import PeerLink.Toml.Document

/-!
Contract: integers written in decimal digits.

A written integer is a minus sign if it is negative, and then its digits without a zero in front. It is
one token, and the reader of integers makes the same integer of it, up to both ends of the range.

Owns: what written integers look like, and reading them back.

Does not own: other ways to write an integer.
-/

namespace PeerLink.Toml

/-! ## Digits -/

theorem grouped?_of_digits {digits : List Char} (nonempty : digits ≠ [])
    (areDigits : ∀ digit ∈ digits, digit.isDigit = true) :
    grouped? Char.isDigit digits = some digits := by
  induction digits with
  | nil => exact absurd rfl nonempty
  | cons digit rest inductionHypothesis =>
      have isDigit := areDigits digit List.mem_cons_self
      cases rest with
      | nil => simp [grouped?, isDigit]
      | cons next later =>
          have others := inductionHypothesis (List.cons_ne_nil _ _) fun char member =>
            areDigits char (List.mem_cons_of_mem _ member)
          have noUnderscore (rest : List Char) : next :: later ≠ '_' :: rest := by
            intro same
            have underscore := areDigits next (List.mem_cons_of_mem _ List.mem_cons_self)
            rw [(List.cons.inj same).1] at underscore
            exact absurd underscore (by decide)
          rw [grouped?, if_pos isDigit, others]
          · rfl
          · exact nofun
          · exact noUnderscore

theorem numberOf_eq_ofDigitChars {digits : List Char}
    (areDigits : ∀ digit ∈ digits, digit.isDigit = true) :
    numberOf 10 digits = Nat.ofDigitChars 10 digits 0 := by
  unfold numberOf
  generalize 0 = sofar
  induction digits generalizing sofar with
  | nil => rfl
  | cons digit rest inductionHypothesis =>
      have isDigit := areDigits digit List.mem_cons_self
      rw [List.foldl_cons, Nat.ofDigitChars_cons, digitValue, if_pos isDigit, Nat.mul_comm]
      exact inductionHypothesis (fun char member => areDigits char (List.mem_cons_of_mem _ member)) _

theorem isDigit_toDigits (number : Nat) {digit : Char} (member : digit ∈ Nat.toDigits 10 number) :
    digit.isDigit = true :=
  Nat.isDigit_of_mem_toDigits (by decide) (by decide) member

/-- There is no zero in front. -/
theorem toDigits_ne_zero_cons {number : Nat} (positive : 0 < number) (rest : List Char) :
    Nat.toDigits 10 number ≠ '0' :: rest := by
  induction number using Nat.strongRecOn generalizing rest with
  | ind number inductionHypothesis =>
      rw [Nat.toDigits_eq_if (by decide)]
      split
      · rename_i small
        intro same
        have zero : number.digitChar = '0' := (List.cons.inj same).1
        have value := Nat.toNat_digitChar_of_lt_ten small
        rw [zero] at value
        have : '0'.toNat = 48 := rfl
        omega
      · rename_i large
        have shorter := inductionHypothesis (number / 10) (by omega) (by omega)
        cases leading : Nat.toDigits 10 (number / 10) with
        | nil => exact absurd leading Nat.toDigits_ne_nil
        | cons digit others =>
            intro same
            refine shorter others ?_
            rw [leading, (List.cons.inj same).1]

theorem decimal?_toDigits (number : Nat) :
    decimal? (Nat.toDigits 10 number) = some (Nat.toDigits 10 number) := by
  obtain rfl | positive := Nat.eq_zero_or_pos number
  · rfl
  · have noZero := toDigits_ne_zero_cons positive
    rw [decimal?]
    · exact grouped?_of_digits Nat.toDigits_ne_nil fun _ => isDigit_toDigits number
    · exact noZero []
    · exact noZero

theorem numberOf_toDigits (number : Nat) : numberOf 10 (Nat.toDigits 10 number) = number := by
  rw [numberOf_eq_ofDigitChars fun _ => isDigit_toDigits number]
  exact Nat.ofDigitChars_ten_toDigits

/-! ## Integers -/

/-- The characters of a written integer. -/
def decimal (number : Int) : List Char := (toString number).toList

theorem decimal_eq (number : Int) :
    decimal number =
      (if number < 0 then ['-'] else []) ++ Nat.toDigits 10 number.natAbs := by
  unfold decimal
  rw [Int.toString_eq_repr]
  cases number with
  | ofNat size => exact Nat.toList_repr
  | negSucc size =>
      rw [if_pos (Int.negSucc_lt_zero size)]
      show ("-" ++ size.succ.repr).toList = _
      rw [String.toList_append, Nat.toList_repr]
      rfl

theorem unsigned_of_digit {first : Char} (isDigit : first.isDigit = true) (rest : List Char) :
    unsigned (first :: rest) = (false, first :: rest) := by
  rw [unsigned]
  · rintro tail same
    rw [(List.cons.inj same).1] at isDigit
    exact absurd isDigit (by decide)
  · rintro tail same
    rw [(List.cons.inj same).1] at isDigit
    exact absurd isDigit (by decide)

theorem unsigned_decimal (number : Int) :
    unsigned (decimal number) = (decide (number < 0), Nat.toDigits 10 number.natAbs) := by
  rw [decimal_eq]
  by_cases negative : number < 0
  · simp [negative, unsigned]
  · simp only [negative, if_false, List.nil_append, decide_false]
    cases digits : Nat.toDigits 10 number.natAbs with
    | nil => exact absurd digits Nat.toDigits_ne_nil
    | cons first rest =>
        refine unsigned_of_digit (isDigit_toDigits number.natAbs ?_) rest
        rw [digits]
        exact List.mem_cons_self

/-- A written integer has no letter of another base behind its first digit. -/
theorem decimal_ne_based (number : Int) {letter : Char} (isNoDigit : letter.isDigit = false)
    (digits : List Char) : decimal number ≠ '0' :: letter :: digits := by
  rw [decimal_eq]
  intro same
  split at same
  · cases (List.cons.inj same).1
  · rw [List.nil_append] at same
    have isDigit : letter.isDigit = true := by
      refine isDigit_toDigits number.natAbs ?_
      rw [same]
      exact List.mem_cons_of_mem _ List.mem_cons_self
    rw [isNoDigit] at isDigit
    cases isDigit

/-- A written integer in range is read as that integer. -/
theorem integer?_decimal (number : Int64) :
    integer? (decimal number.toInt) = some number.toInt := by
  have inRange : inRange? number.toInt = some number.toInt :=
    if_pos ⟨number.minValue_le_toInt, number.toInt_le⟩
  have signed : (if decide (number.toInt < 0) = true then -(number.toInt.natAbs : Int)
      else number.toInt.natAbs) = number.toInt := by
    split
    · rename_i negative
      have := of_decide_eq_true negative
      omega
    · rename_i natural
      have := of_decide_eq_false (Bool.not_eq_true _ ▸ natural)
      omega
  rw [integer?, unsigned_decimal]
  · dsimp only
    rw [decimal?_toDigits]
    show inRange? (if decide (number.toInt < 0) = true then
      -(numberOf 10 (Nat.toDigits 10 number.toInt.natAbs) : Int)
      else numberOf 10 (Nat.toDigits 10 number.toInt.natAbs)) = _
    rw [numberOf_toDigits, signed, inRange]
  · exact decimal_ne_based _ (by decide)
  · exact decimal_ne_based _ (by decide)
  · exact decimal_ne_based _ (by decide)

/-! ## One token -/

theorem isBareKeyChar_of_isDigit {char : Char} (isDigit : char.isDigit = true) :
    isBareKeyChar char = true := by
  simp [isBareKeyChar, Char.isAlphanum, isDigit]

theorem isBareKeyChar_decimal (number : Int) :
    ∀ char ∈ decimal number, isBareKeyChar char = true := by
  rw [decimal_eq]
  intro char member
  obtain isSign | isDigit := List.mem_append.mp member
  · split at isSign
    · rw [List.mem_singleton.mp isSign]
      decide
    · cases isSign
  · exact isBareKeyChar_of_isDigit (isDigit_toDigits number.natAbs isDigit)

theorem decimal_ne_nil (number : Int) : decimal number ≠ [] := by
  rw [decimal_eq]
  exact List.append_ne_nil_of_right_ne_nil _ Nat.toDigits_ne_nil

theorem exists_decimal (number : Int) :
    ∃ first rest, decimal number = first :: rest ∧ (first = '-' ∨ first.isDigit = true) := by
  rw [decimal_eq]
  split
  · exact ⟨'-', _, rfl, .inl rfl⟩
  · cases digits : Nat.toDigits 10 number.natAbs with
    | nil => exact absurd digits Nat.toDigits_ne_nil
    | cons first rest =>
        refine ⟨first, rest, rfl, .inr (isDigit_toDigits number.natAbs ?_)⟩
        rw [digits]
        exact List.mem_cons_self

theorem tokenValue?_decimal (number : Int64) :
    tokenValue? (decimal number.toInt) = some (.integer number.toInt) := by
  have noWord (letter : Char) (noSign : letter ≠ '-') (noDigit : letter.isDigit = false)
      (letters : List Char) : decimal number.toInt ≠ letter :: letters := by
    obtain ⟨first, rest, written, sign | digit⟩ := exists_decimal number.toInt
    · rw [written, sign]
      intro same
      exact noSign (List.cons.inj same).1.symm
    · rw [written]
      intro same
      rw [(List.cons.inj same).1, noDigit] at digit
      cases digit
  have isNotTrue : decimal number.toInt ≠ "true".toList := noWord 't' (by decide) (by decide) _
  have isNotFalse : decimal number.toInt ≠ "false".toList := noWord 'f' (by decide) (by decide) _
  rw [tokenValue?, if_neg isNotTrue, if_neg isNotFalse, integer?_decimal]

end PeerLink.Toml
