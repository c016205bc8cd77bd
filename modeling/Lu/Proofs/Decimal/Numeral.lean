import Lu.Proofs.Decimal.Digits
import Lu.Proofs.Decimal.Word
import Lu.Proofs.Except
import Lu.Text.Blank

namespace Lu

/-!
Decimal numbers as texts: which texts they are, and that reading one gives its value just if that is
a word of 64 bits.
-/

/-- The text is a decimal number of this value: a sign or none, then one or more digits. -/
inductive Numeral : List Char → Int → Prop
  | unsigned {digits : List Char} : digits ≠ [] → (∀ c ∈ digits, c.isDigit = true) →
      Numeral digits (digitsValue 10 digits)
  | plus {digits : List Char} : digits ≠ [] → (∀ c ∈ digits, c.isDigit = true) →
      Numeral ('+' :: digits) (digitsValue 10 digits)
  | minus {digits : List Char} : digits ≠ [] → (∀ c ∈ digits, c.isDigit = true) →
      Numeral ('-' :: digits) (-(digitsValue 10 digits : Int))

section Reading

variable {base value magnitude total : Nat} {digits text : List Char} {negative : Bool} {n : Int64}

theorem fitsWord_signed :
    FitsWord (signed negative magnitude) ↔ magnitude ≤ greatestMagnitude negative := by
  unfold FitsWord signed greatestMagnitude
  cases negative with
  | true =>
    simp only [if_true]
    omega
  | false =>
    simp only [Bool.false_eq_true, if_false]
    omega

/-- Only digits are read to their end. -/
theorem digits_of_readDigits (read : readDigits base negative digits value = .ok total) :
    ∀ c ∈ digits, (digitValue? base c).isSome = true := by
  induction digits generalizing value with
  | nil => simp
  | cons c digits ih =>
    cases digit : digitValue? base c with
    | none => simp [readDigits, digit] at read
    | some d =>
      rw [readDigits_cons digit] at read
      split at read
      · exact List.forall_mem_cons.mpr ⟨by rw [digit]; rfl, ih read⟩
      · cases read

theorem readDigits_of_digits (digit : ∀ c ∈ digits, c.isDigit = true) :
    readDigits 10 negative digits 0 =
      if digitsValue 10 digits ≤ greatestMagnitude negative then .ok (digitsValue 10 digits)
      else .error (.outOfRange negative) := by
  have all : ∀ c ∈ digits, (digitValue? 10 c).isSome = true := by
    simpa only [isSome_digitValue?_decimal] using digit
  rw [readDigits_eq all (Nat.zero_le _), Nat.zero_mul, Nat.zero_add]

theorem readDigits_eq_ok : readDigits 10 negative digits 0 = .ok total ↔
    (∀ c ∈ digits, c.isDigit = true) ∧ total = digitsValue 10 digits ∧
      total ≤ greatestMagnitude negative := by
  constructor
  · intro read
    have digit : ∀ c ∈ digits, c.isDigit = true := by
      simpa only [isSome_digitValue?_decimal] using digits_of_readDigits read
    rw [readDigits_of_digits digit] at read
    split at read
    · rename_i fits
      cases read
      exact ⟨digit, rfl, fits⟩
    · cases read
  · rintro ⟨digit, rfl, fits⟩
    rw [readDigits_of_digits digit, if_pos fits]

/-- Digits behind a sign are read as the word that they are with it. -/
theorem readSigned_eq_ok :
    (readDigits 10 negative digits 0).map (fun value => Int64.ofInt (signed negative value)) = .ok n ↔
      (∀ c ∈ digits, c.isDigit = true) ∧ signed negative (digitsValue 10 digits) = n.toInt := by
  simp only [map_eq_ok, readDigits_eq_ok]
  constructor
  · rintro ⟨_, ⟨digit, rfl, fits⟩, rfl⟩
    obtain ⟨least, most⟩ := fitsWord_signed.mpr fits
    exact ⟨digit, (Int64.toInt_ofInt_of_le least most).symm⟩
  · rintro ⟨digit, same⟩
    have fits := fitsWord_toInt n
    rw [← same, fitsWord_signed] at fits
    exact ⟨_, ⟨digit, rfl, fits⟩, by rw [same, Int64.ofInt_toInt]⟩

/-- A number is read as the word that it is, and nothing else is read. -/
theorem readInt_eq_ok : readInt text = .ok n ↔ Numeral text n.toInt := by
  unfold readInt
  constructor
  · intro read
    rcases text with _ | ⟨c, digits⟩
    · cases read
    by_cases minus : c = '-'
    · subst minus
      have nonempty : digits ≠ [] := by
        rintro rfl
        cases read
      rw [readBased_minus nonempty, readSigned_eq_ok] at read
      rw [← read.2]
      exact .minus nonempty read.1
    by_cases plus : c = '+'
    · subst plus
      have nonempty : digits ≠ [] := by
        rintro rfl
        cases read
      rw [readBased_plus nonempty, readSigned_eq_ok] at read
      rw [← read.2]
      exact .plus nonempty read.1
    · rw [readBased_unsigned plus minus, readSigned_eq_ok] at read
      rw [← read.2]
      exact .unsigned (List.cons_ne_nil c digits) read.1
  · intro numeral
    generalize value : n.toInt = number at numeral
    cases numeral with
    | unsigned nonempty digit =>
      rcases text with _ | ⟨c, digits⟩
      · exact absurd rfl nonempty
      have first : c.isDigit = true := digit c List.mem_cons_self
      obtain ⟨plus, minus⟩ := not_sign_of_digit (isSome_digitValue?_decimal.trans first)
      rw [readBased_unsigned plus minus]
      exact readSigned_eq_ok.mpr ⟨digit, value.symm⟩
    | plus nonempty digit =>
      rw [readBased_plus nonempty]
      exact readSigned_eq_ok.mpr ⟨digit, value.symm⟩
    | minus nonempty digit =>
      rw [readBased_minus nonempty]
      exact readSigned_eq_ok.mpr ⟨digit, value.symm⟩

end Reading

section Spelling

variable {c : Char} {text : List Char} {value : Int}

theorem not_blank_of_digit (digit : c.isDigit = true) : isBlank c = false := by
  obtain ⟨least, most⟩ := isDigit_iff.mp digit
  simp only [isBlank, blankRanges, List.any_cons, List.any_nil, Bool.or_false, Bool.or_eq_false_iff,
    Bool.and_eq_false_iff, decide_eq_false_iff_not]
  omega

/-- No white space is part of a number. -/
theorem Numeral.not_blank (numeral : Numeral text value) : ∀ c ∈ text, isBlank c = false := by
  cases numeral with
  | unsigned nonempty digit => exact fun c member => not_blank_of_digit (digit c member)
  | plus nonempty digit | minus nonempty digit =>
    rintro c (_ | ⟨_, member⟩)
    · rfl
    · exact not_blank_of_digit (digit c member)

theorem numeral_toDigits (n : Nat) : Numeral (Nat.toDigits 10 n) n := by
  have numeral := Numeral.unsigned Nat.toDigits_ne_nil (isDigit_toDigits n)
  rwa [digitsValue_toDigits] at numeral

/-- An integer is written as a number of its value. -/
theorem numeral_toString (x : Int) : Numeral (toString x).toList x := by
  rw [Int.toString_eq_repr]
  cases x with
  | ofNat n =>
    have written : (Int.ofNat n).repr.toList = Nat.toDigits 10 n := Nat.toList_repr
    rw [written]
    exact numeral_toDigits n
  | negSucc n =>
    have written : (Int.negSucc n).repr.toList = '-' :: Nat.toDigits 10 (n + 1) := by
      rw [Int.repr, String.toList_append, Nat.toList_repr]
      rfl
    have numeral := Numeral.minus Nat.toDigits_ne_nil (isDigit_toDigits (n + 1))
    rwa [digitsValue_toDigits, ← written] at numeral

end Spelling

end Lu
