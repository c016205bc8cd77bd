import Mathlib.Data.List.Basic
import Mathlib.Data.Nat.Digits.Defs
import Lu.Decimal.Reading

namespace Lu

/-!
What digits mean: reading them one by one, with a limit at every step, comes to the number that they
stand for, or stops just if that number is too large.
-/

/-- The digits of the bases up to sixteen, each at the place of its value. -/
def digitRow : List Char :=
  ['0', '1', '2', '3', '4', '5', '6', '7', '8', '9', 'a', 'b', 'c', 'd', 'e', 'f']

/-- The value of a digit, whose letter may be a capital. -/
def digitRank (c : Char) : Nat := digitRow.idxOf c.toLower

/-- The number that digits stand for, the last one counting ones. -/
def digitsValue (base : Nat) (digits : List Char) : Nat :=
  Nat.ofDigits base (digits.map digitRank).reverse

/-- The largest number that fits, its sign left out: there is one more number below zero. -/
def greatestMagnitude (negative : Bool) : Nat := if negative then 2 ^ 63 else 2 ^ 63 - 1

/-- The number whose magnitude and sign are known. -/
def signed (negative : Bool) (magnitude : Nat) : Int :=
  if negative then -(magnitude : Int) else magnitude

/-- Why a number does not fit. -/
def IntTextError.outOfRange (negative : Bool) : IntTextError :=
  if negative then .tooSmall else .tooLarge

section Digits

variable {base value : Nat} {c : Char} {digits : List Char} {negative : Bool}

theorem digitRank_of_row (first count offset : Nat)
    (ranks : ∀ v < count, digitRank (Char.ofNat (first + v)) = offset + v)
    (from_first : first ≤ c.toNat) (before : c.toNat < first + count) :
    digitRank c = offset + (c.toNat - first) := by
  have rank := ranks (c.toNat - first) (by omega)
  rwa [Nat.add_sub_cancel' from_first, Char.ofNat_toNat] at rank

/-- A digit counts what its place in the row says. -/
theorem digitValue?_eq_rank (digit : (digitValue? base c).isSome = true) :
    digitValue? base c = some (digitRank c) ∧ digitRank c < base := by
  have le (x y : Char) : x ≤ y ↔ x.toNat ≤ y.toNat := Iff.rfl
  obtain ⟨found, value⟩ := Option.isSome_iff_exists.mp digit
  have zero : '0'.toNat = 48 := rfl
  have nine : '9'.toNat = 57 := rfl
  have a : 'a'.toNat = 97 := rfl
  have f : 'f'.toNat = 102 := rfl
  have A : 'A'.toNat = 65 := rfl
  have F : 'F'.toNat = 70 := rfl
  suffices rank : digitRank c = found ∧ found < base by rw [rank.1]; exact ⟨value, rank.2⟩
  simp only [digitValue?, Option.filter_eq_some_iff, decide_eq_true_eq, le] at value
  obtain ⟨value, below⟩ := value
  refine ⟨?_, below⟩
  split at value
  · cases value
    rw [digitRank_of_row 48 10 0 (by decide)] <;> omega
  split at value
  · cases value
    rw [digitRank_of_row 97 6 10 (by decide)] <;> omega
  split at value
  · cases value
    rw [digitRank_of_row 65 6 10 (by decide)] <;> omega
  · cases value

theorem isDigit_iff : c.isDigit = true ↔ 48 ≤ c.toNat ∧ c.toNat ≤ 57 := by
  simp [Char.isDigit, UInt32.le_iff_toNat_le, ← Char.toNat_val]

theorem digitValue?_decimal :
    digitValue? 10 c = if c.isDigit then some (c.toNat - '0'.toNat) else none := by
  have zero : '0'.toNat = 48 := rfl
  have isDigit : c.isDigit = true ↔ '0' ≤ c ∧ c ≤ '9' := isDigit_iff
  unfold digitValue?
  split
  · rename_i digit
    have : c.toNat ≤ 57 := digit.2
    rw [if_pos (isDigit.mpr digit), Option.filter_some, if_pos]
    simp only [decide_eq_true_eq]
    omega
  · rename_i other
    rw [if_neg fun digit => other (isDigit.mp digit)]
    split
    · simp
    · split <;> simp

theorem isSome_digitValue?_decimal : (digitValue? 10 c).isSome = c.isDigit := by
  rw [digitValue?_decimal]
  cases c.isDigit <;> rfl

theorem not_sign_of_digit (digit : (digitValue? base c).isSome = true) : c ≠ '+' ∧ c ≠ '-' := by
  constructor
  · rintro rfl
    cases digit
  · rintro rfl
    cases digit

@[simp]
theorem digitsValue_nil : digitsValue base [] = 0 := rfl

@[simp]
theorem digitsValue_cons :
    digitsValue base (c :: digits) =
      digitRank c * base ^ digits.length + digitsValue base digits := by
  simp only [digitsValue, List.map_cons, List.reverse_cons, Nat.ofDigits_append, List.length_reverse,
    List.length_map, Nat.ofDigits_singleton]
  rw [Nat.add_comm, Nat.mul_comm]

theorem isDigit_toDigits (n : Nat) : ∀ c ∈ Nat.toDigits 10 n, c.isDigit = true := by
  intro c member
  exact Nat.isDigit_of_mem_toDigits (by decide) (by decide) member

/-- A number is what its decimal digits stand for. -/
theorem digitsValue_toDigits (n : Nat) : digitsValue 10 (Nat.toDigits 10 n) = n := by
  rw [digitsValue, Nat.ofDigits_eq_foldr, List.foldr_reverse, List.foldl_map]
  refine Eq.trans (List.foldl_ext _ _ _ fun value c member => ?_) Nat.ofDigitChars_ten_toDigits
  obtain ⟨least, most⟩ := isDigit_iff.mp (isDigit_toDigits n c member)
  have rank : digitRank c = 0 + (c.toNat - 48) :=
    digitRank_of_row 48 10 0 (by decide) least (by omega)
  rw [rank, Nat.zero_add]
  exact Nat.add_comm _ _

theorem readDigits_cons {d : Nat} (digit : digitValue? base c = some d) :
    readDigits base negative (c :: digits) value =
      if value * base + d ≤ greatestMagnitude negative then
        readDigits base negative digits (value * base + d)
      else .error (.outOfRange negative) := by
  have least : leastInt = -2 ^ 63 := rfl
  have greatest : greatestInt = 2 ^ 63 - 1 := rfl
  rw [readDigits, digit]
  cases negative with
  | true =>
    have same : leastInt ≤ -((value * base + d : Nat) : Int) ↔
        value * base + d ≤ greatestMagnitude true := by
      simp only [greatestMagnitude, if_true]
      omega
    simp only [if_true, same]
    rfl
  | false =>
    have same : ((value * base + d : Nat) : Int) ≤ greatestInt ↔
        value * base + d ≤ greatestMagnitude false := by
      simp only [greatestMagnitude, Bool.false_eq_true, if_false]
      omega
    simp only [Bool.false_eq_true, if_false, same]
    rfl

/-- Digits are read to their end unless the number read so far and they come to is too large. That
it is too large shows early, since no digit to come makes it smaller. -/
theorem readDigits_eq (all : ∀ c ∈ digits, (digitValue? base c).isSome = true)
    (fits : value ≤ greatestMagnitude negative) :
    readDigits base negative digits value =
      if value * base ^ digits.length + digitsValue base digits ≤ greatestMagnitude negative then
        .ok (value * base ^ digits.length + digitsValue base digits)
      else .error (.outOfRange negative) := by
  induction digits generalizing value with
  | nil => simp [readDigits, fits]
  | cons c digits ih =>
    obtain ⟨digit, others⟩ := List.forall_mem_cons.mp all
    obtain ⟨digit, below⟩ := digitValue?_eq_rank digit
    have total : value * base ^ (c :: digits).length + digitsValue base (c :: digits) =
        (value * base + digitRank c) * base ^ digits.length + digitsValue base digits := by
      rw [digitsValue_cons, List.length_cons, Nat.pow_succ]
      ring
    rw [readDigits_cons digit, total]
    split
    · rename_i next
      exact ih others next
    · rename_i next
      have power : 0 < base ^ digits.length := Nat.pow_pos (by omega)
      have grows := Nat.le_mul_of_pos_right (value * base + digitRank c) power
      rw [if_neg (by omega)]

/-- What the reader found is an integer before it is made a word. -/
theorem map_natCast (f : Int → Int64) (read : Except IntTextError Nat) :
    (do let value ← read; pure (value : Int)).map f = read.map fun value : Nat => f value := by
  cases read <;> rfl

theorem readBased_minus (nonempty : digits ≠ []) : readBased base ('-' :: digits) =
    (readDigits base true digits 0).map fun value => Int64.ofInt (signed true value) := by
  cases digits with
  | nil => exact absurd rfl nonempty
  | cons c digits => exact map_natCast (fun value => Int64.ofInt (-value)) _

theorem readBased_plus (nonempty : digits ≠ []) : readBased base ('+' :: digits) =
    (readDigits base false digits 0).map fun value => Int64.ofInt (signed false value) := by
  cases digits with
  | nil => exact absurd rfl nonempty
  | cons c digits => exact map_natCast Int64.ofInt _

theorem readBased_unsigned (plus : c ≠ '+') (minus : c ≠ '-') :
    readBased base (c :: digits) =
      (readDigits base false (c :: digits) 0).map fun value => Int64.ofInt (signed false value) := by
  rw [readBased]
  · exact map_natCast Int64.ofInt _
  all_goals simp [plus, minus]

/-- Digits without a sign are the number that they stand for, if it fits. -/
theorem readBased_digits (nonempty : digits ≠ [])
    (all : ∀ c ∈ digits, (digitValue? base c).isSome = true) :
    readBased base digits = if digitsValue base digits ≤ 2 ^ 63 - 1 then
      .ok (Int64.ofInt (digitsValue base digits)) else .error .tooLarge := by
  obtain ⟨c, rest, rfl⟩ := List.exists_cons_of_ne_nil nonempty
  obtain ⟨plus, minus⟩ := not_sign_of_digit (all c List.mem_cons_self)
  rw [readBased_unsigned plus minus, readDigits_eq all (Nat.zero_le _), Nat.zero_mul, Nat.zero_add]
  simp only [greatestMagnitude, Bool.false_eq_true, if_false]
  split <;> rfl

end Digits

end Lu
