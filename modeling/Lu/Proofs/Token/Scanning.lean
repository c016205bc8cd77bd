import Lu.Proofs.Text.Classes
import Lu.Proofs.Token.Patterns

namespace Lu

/-!
What the scanners of numbers, strings and comments split off, said without the order in which they
look at the characters.
-/

section Numbers

/-- The ways in which a number comes first in a text: with all digits that are there, and with a
fraction or an exponent if there is a whole one. -/
inductive Number : Piece → Prop
  | based {letter base d ds rest} : announcedBase? letter = some base →
      (digitValue? base d).isSome = true → (∀ c ∈ ds, isDigitPart base c = true) →
      (∀ c ∈ rest.head?, isDigitPart base c = false) →
      Number (intPiece base (d :: ds) ('0' :: letter :: d :: ds) rest)
  | int {whole rest} : whole ∈ Pattern.digits → (∀ c ∈ rest.head?, isDigitPart 10 c = false) →
      ¬ Pattern.Begins (Pattern.hexInt + Pattern.binInt) (whole ++ rest) →
      ¬ Pattern.Begins (Pattern.exactly ['.'] * Pattern.digits) rest →
      ¬ Pattern.Begins Pattern.exponent rest → Number (intPiece 10 whole whole rest)
  | power {whole power rest} : whole ∈ Pattern.digits → power ∈ Pattern.exponent →
      (∀ c ∈ rest.head?, c.isDigit = false) → Number (floatPiece (whole ++ power) rest)
  | point {whole fraction rest} : whole ∈ Pattern.digits → fraction ∈ Pattern.digits →
      (∀ c ∈ rest.head?, isDigitPart 10 c = false) → ¬ Pattern.Begins Pattern.exponent rest →
      Number (floatPiece (whole ++ '.' :: fraction) rest)
  | pointPower {whole fraction power rest} : whole ∈ Pattern.digits → fraction ∈ Pattern.digits →
      power ∈ Pattern.exponent → (∀ c ∈ rest.head?, c.isDigit = false) →
      Number (floatPiece (whole ++ '.' :: (fraction ++ power)) rest)

variable {chars text rest : List Char}

/-- A sign in front of digits is split off; digits without one are left alone. -/
theorem splitSign_digits {sign digits : List Char} (signs : sign = [] ∨ sign = ['+'] ∨ sign = ['-'])
    (digit : ∀ c ∈ digits.head?, c.isDigit = true) : splitSign (sign ++ digits) = (sign, digits) := by
  rcases signs with rfl | rfl | rfl
  · cases digits with
    | nil => rfl
    | cons c digits =>
      have isDigit := digit c rfl
      have plus : c ≠ '+' := by rintro rfl; exact absurd isDigit (by decide)
      have minus : c ≠ '-' := by rintro rfl; exact absurd isDigit (by decide)
      simp [splitSign, plus, minus]
  · rfl
  · rfl

theorem splitSign_fst (chars : List Char) :
    (splitSign chars).1 = [] ∨ (splitSign chars).1 = ['+'] ∨ (splitSign chars).1 = ['-'] := by
  unfold splitSign
  split
  · exact .inr (.inl rfl)
  · exact .inr (.inr rfl)
  · exact .inl rfl

theorem forall_head {p : Char → Prop} {c : Char} (holds : p c) : ∀ d ∈ (c :: chars).head?, p d := by
  intro d first
  cases first
  exact holds

/-- An exponent is split off with all digits that are there. -/
theorem splitExponent?_eq_some : splitExponent? chars = some (text, rest) ↔
    text ∈ Pattern.exponent ∧ (∀ c ∈ rest.head?, c.isDigit = false) ∧ chars = text ++ rest := by
  rw [Pattern.mem_exponent]
  constructor
  · intro found
    have covers := splitExponent?_append found
    cases chars with
    | nil => cases found
    | cons e chars =>
      rw [splitExponent?] at found
      split at found
      · rename_i isE
        simp only at found
        split at found
        · cases found
        · rename_i nonempty
          simp only [Option.some.injEq, Prod.mk.injEq] at found
          obtain ⟨rfl, rfl⟩ := found
          obtain ⟨d, ds, power⟩ := List.exists_cons_of_ne_nil (mt List.isEmpty_iff.mpr nonempty)
          have all : ∀ c ∈ d :: ds, c.isDigit = true := power ▸ fun c => List.mem_takeWhile_imp
          exact ⟨⟨e, _, d, ds, isE, splitSign_fst chars, all, by rw [power]⟩,
            head?_dropWhile _ _, covers.symm⟩
      · cases found
  · rintro ⟨⟨e, sign, d, ds, isE, signs, all, rfl⟩, stops, rfl⟩
    have head : ∀ c ∈ (d :: ds ++ rest).head?, c.isDigit = true :=
      forall_head (all d (List.mem_cons_self ..))
    obtain ⟨taken, dropped⟩ := takeWhile_before all stops
    rw [List.cons_append, List.append_assoc, splitExponent?, if_pos isE]
    simp only [splitSign_digits signs head, taken, dropped]
    rfl

/-- Where an exponent comes first, all of it is split off. -/
theorem splitExponent?_begins {power : List Char} (isPower : power ∈ Pattern.exponent)
    (back : List Char) : splitExponent? (power ++ back) =
      some (power ++ back.takeWhile Char.isDigit, back.dropWhile Char.isDigit) := by
  obtain ⟨e, sign, d, ds, isE, signs, all, rfl⟩ := Pattern.mem_exponent.mp isPower
  have more : ∀ c ∈ d :: (ds ++ back.takeWhile Char.isDigit), c.isDigit = true := by
    intro c member
    rw [← List.cons_append] at member
    rcases List.mem_append.mp member with member | member
    · exact all c member
    · exact List.mem_takeWhile_imp member
  refine splitExponent?_eq_some.mpr ⟨Pattern.mem_exponent.mpr ⟨e, sign, d, _, isE, signs, more, ?_⟩,
    head?_dropWhile _ _, ?_⟩
  · simp
  · simp [List.takeWhile_append_dropWhile]

theorem splitExponent?_eq_none :
    splitExponent? chars = none ↔ ¬ Pattern.Begins Pattern.exponent chars := by
  constructor
  · rintro none ⟨front, isExponent, back, rfl⟩
    rw [splitExponent?_begins isExponent] at none
    cases none
  · intro not
    cases found : splitExponent? chars with
    | none => rfl
    | some split =>
      obtain ⟨isExponent, -, covers⟩ := splitExponent?_eq_some.mp found
      exact (not ⟨split.1, isExponent, split.2, covers.symm⟩).elim

theorem basedPiece?_eq_some {letter d : Char} {base : Nat} {ds : List Char}
    (announced : announcedBase? letter = some base) (digit : (digitValue? base d).isSome = true)
    (parts : ∀ c ∈ ds, isDigitPart base c = true)
    (stops : ∀ c ∈ rest.head?, isDigitPart base c = false) :
    basedPiece? ('0' :: letter :: d :: ds ++ rest) =
      some (intPiece base (d :: ds) ('0' :: letter :: d :: ds) rest) := by
  obtain ⟨taken, dropped⟩ := takeWhile_before parts stops
  simp [basedPiece?, announced, digit, taken, dropped]

@[simp]
theorem intPiece_text {base : Nat} {digits : List Char} :
    (intPiece base digits text rest).text = text := by
  unfold intPiece
  split <;> rfl

@[simp]
theorem intPiece_rest {base : Nat} {digits : List Char} :
    (intPiece base digits text rest).rest = rest := by
  unfold intPiece
  split <;> rfl

theorem basedPiece?_found {piece : Piece} (found : basedPiece? chars = some piece) :
    Number piece ∧ piece.text ∈ Pattern.hexInt + Pattern.binInt := by
  unfold basedPiece? at found
  split at found
  · rename_i letter d more
    split at found
    · rename_i zero
      subst zero
      split at found
      · rename_i base announced
        split at found
        · rename_i digit
          cases found
          have parts : ∀ c ∈ more.takeWhile (isDigitPart base), isDigitPart base c = true := fun c =>
            List.mem_takeWhile_imp
          exact ⟨.based announced digit parts (head?_dropWhile _ _),
            Pattern.mem_based.mpr ⟨letter, base, d, _, announced, digit, parts, intPiece_text⟩⟩
        · cases found
      · cases found
    · cases found
  · cases found

theorem basedPiece?_none_iff :
    basedPiece? chars = none ↔ ¬ Pattern.Begins (Pattern.hexInt + Pattern.binInt) chars := by
  constructor
  · rintro none ⟨front, isBased, back, rfl⟩
    obtain ⟨letter, base, d, ds, announced, digit, parts, rfl⟩ := Pattern.mem_based.mp isBased
    simp [basedPiece?, announced, digit] at none
  · intro not
    cases found : basedPiece? chars with
    | none => rfl
    | some piece =>
      have covers := (basedPiece?_splits found).2
      exact (not ⟨piece.text, (basedPiece?_found found).2, piece.rest, covers⟩).elim

/-- A fraction begins where a digit follows the point. -/
theorem begins_point : Pattern.Begins (Pattern.exactly ['.'] * Pattern.digits) chars ↔
    ∃ d more, chars = '.' :: d :: more ∧ d.isDigit = true := by
  constructor
  · rintro ⟨_, point, back, rfl⟩
    obtain ⟨_, fraction, rfl⟩ := Pattern.mem_exactly_mul.mp point
    obtain ⟨d, ds, digit, -, rfl⟩ := Pattern.mem_digits.mp fraction
    exact ⟨d, ds ++ back, rfl, digit⟩
  · rintro ⟨d, more, rfl, digit⟩
    have fraction : [d] ∈ Pattern.digits := Pattern.mem_digits.mpr ⟨d, [], digit, nofun, rfl⟩
    exact ⟨['.', d], Pattern.mem_exactly_mul.mpr ⟨[d], fraction, rfl⟩, more, rfl⟩

/-- Where a fraction follows the digits read so far. -/
theorem decimalPiece_point {whole fraction : List Char} (isFraction : fraction ∈ Pattern.digits)
    (stops : ∀ c ∈ rest.head?, isDigitPart 10 c = false) :
    decimalPiece whole ('.' :: (fraction ++ rest)) =
      match splitExponent? rest with
      | some (power, rest) => floatPiece (whole ++ '.' :: (fraction ++ power)) rest
      | none => floatPiece (whole ++ '.' :: fraction) rest := by
  obtain ⟨d, ds, digit, parts, rfl⟩ := Pattern.mem_digits.mp isFraction
  obtain ⟨taken, dropped⟩ := takeWhile_before parts stops
  rw [List.cons_append, decimalPiece, if_pos digit, taken, dropped]
  cases splitExponent? rest <;> simp

/-- Where none does. -/
theorem decimalPiece_no_point {whole : List Char}
    (none : ¬ Pattern.Begins (Pattern.exactly ['.'] * Pattern.digits) rest) :
    decimalPiece whole rest =
      match splitExponent? rest with
      | some (power, rest) => floatPiece (whole ++ power) rest
      | .none => intPiece 10 whole whole rest := by
  unfold decimalPiece
  split
  · rename_i d more
    have notDigit : ¬ d.isDigit = true := fun digit => none (begins_point.mpr ⟨d, more, rfl, digit⟩)
    rw [if_neg notDigit]
    rfl
  · rfl

theorem digits_takeWhile {first : Char} (digit : first.isDigit = true) (chars : List Char) :
    first :: chars.takeWhile (isDigitPart 10) ∈ Pattern.digits :=
  Pattern.mem_digits.mpr ⟨first, _, digit, fun _ => List.mem_takeWhile_imp, rfl⟩

/-- The scanner finds the number that comes first. -/
theorem numberPiece_number {first : Char} (digit : first.isDigit = true) (chars : List Char) :
    Number (numberPiece first chars) := by
  unfold numberPiece
  split
  · rename_i found
    exact (basedPiece?_found found).1
  · rename_i based
    rw [basedPiece?_none_iff] at based
    have isWhole := digits_takeWhile digit chars
    have stops := head?_dropWhile (isDigitPart 10) chars
    have covers : first :: chars.takeWhile (isDigitPart 10) ++ chars.dropWhile (isDigitPart 10) =
        first :: chars := by simp
    rw [← covers] at based
    generalize first :: chars.takeWhile (isDigitPart 10) = whole at isWhole based
    generalize chars.dropWhile (isDigitPart 10) = rest at stops based
    by_cases point : Pattern.Begins (Pattern.exactly ['.'] * Pattern.digits) rest
    · obtain ⟨d, more, rfl, digit⟩ := begins_point.mp point
      have isFraction := digits_takeWhile digit more
      have stops := head?_dropWhile (isDigitPart 10) more
      have split : d :: more =
          d :: more.takeWhile (isDigitPart 10) ++ more.dropWhile (isDigitPart 10) := by
        simp
      rw [split, decimalPiece_point isFraction stops]
      split
      · rename_i found
        obtain ⟨isPower, stops, -⟩ := splitExponent?_eq_some.mp found
        exact .pointPower isWhole isFraction isPower stops
      · rename_i found
        exact .point isWhole isFraction stops (splitExponent?_eq_none.mp found)
    · rw [decimalPiece_no_point point]
      split
      · rename_i found
        obtain ⟨isPower, stops, -⟩ := splitExponent?_eq_some.mp found
        exact .power isWhole isPower stops
      · rename_i found
        exact .int isWhole stops based point (splitExponent?_eq_none.mp found)

/-- What begins with digits and goes on with something else has the digits as its own. -/
theorem numberPiece_digits {first : Char} {whole : List Char} (isWhole : whole ∈ Pattern.digits)
    (stops : ∀ c ∈ rest.head?, isDigitPart 10 c = false)
    (based : ¬ Pattern.Begins (Pattern.hexInt + Pattern.binInt) (whole ++ rest))
    (covers : whole ++ rest = first :: chars) : numberPiece first chars = decimalPiece whole rest := by
  obtain ⟨d, ds, digit, parts, rfl⟩ := Pattern.mem_digits.mp isWhole
  obtain ⟨rfl, same⟩ := List.cons.inj covers
  subst same
  obtain ⟨taken, dropped⟩ := takeWhile_before parts stops
  have none := basedPiece?_none_iff.mpr based
  rw [List.cons_append] at none
  rw [numberPiece, List.append_eq, none, taken, dropped]

/-- Digits with no letter behind them that announces a base. -/
theorem not_begins_based {whole : List Char} (isWhole : whole ∈ Pattern.digits)
    (other : ∀ c ∈ rest.head?, announcedBase? c = none) :
    ¬ Pattern.Begins (Pattern.hexInt + Pattern.binInt) (whole ++ rest) := by
  rintro ⟨_, isBased, back, covers⟩
  obtain ⟨d, ds, -, parts, rfl⟩ := Pattern.mem_digits.mp isWhole
  obtain ⟨letter, base, e, es, announced, -, -, rfl⟩ := Pattern.mem_based.mp isBased
  have after : letter :: e :: (es ++ back) = ds ++ rest := (List.cons.inj covers).2
  cases ds with
  | nil =>
    have none := other letter (by rw [List.nil_append] at after; rw [← after]; rfl)
    rw [announced] at none
    cases none
  | cons c ds =>
    obtain rfl : letter = c := (List.cons.inj after).1
    have part := parts letter (List.mem_cons_self ..)
    unfold announcedBase? at announced
    split at announced <;> first | exact absurd part (by decide) | cases announced

theorem exponent_head {power : List Char} (isPower : power ∈ Pattern.exponent) (rest : List Char) :
    ∀ c ∈ (power ++ rest).head?, c = 'e' ∨ c = 'E' := by
  obtain ⟨e, sign, d, ds, isE, -, -, rfl⟩ := Pattern.mem_exponent.mp isPower
  exact forall_head isE

theorem exponent_not_part {power : List Char} (isPower : power ∈ Pattern.exponent) (rest : List Char) :
    ∀ c ∈ (power ++ rest).head?, isDigitPart 10 c = false := by
  intro c first
  rcases exponent_head isPower rest c first with rfl | rfl <;> decide

theorem exponent_not_base {power : List Char} (isPower : power ∈ Pattern.exponent) (rest : List Char) :
    ∀ c ∈ (power ++ rest).head?, announcedBase? c = none := by
  intro c first
  rcases exponent_head isPower rest c first with rfl | rfl <;> decide

theorem exponent_not_point {power : List Char} (isPower : power ∈ Pattern.exponent)
    {rest more : List Char} : power ++ rest ≠ '.' :: more := by
  intro same
  rcases exponent_head isPower rest '.' (by rw [same]; rfl) with point | point <;>
    exact absurd point (by decide)

theorem Number.digit {lexeme : Lexeme} (number : Number ⟨lexeme, text, rest⟩) :
    ∃ d ds, d.isDigit = true ∧ text = d :: ds := by
  have digits {whole : List Char} (isWhole : whole ∈ Pattern.digits) (more : List Char) :
      ∃ d ds, d.isDigit = true ∧ whole ++ more = d :: ds := by
    obtain ⟨d, ds, isDigit, -, rfl⟩ := Pattern.mem_digits.mp isWhole
    exact ⟨d, ds ++ more, isDigit, rfl⟩
  generalize shape : (⟨lexeme, text, rest⟩ : Piece) = piece at number
  obtain rfl : piece.text = text := shape ▸ rfl
  cases number with
  | based => exact ⟨'0', _, rfl, intPiece_text⟩
  | int isWhole =>
    rw [intPiece_text]
    simpa using digits isWhole []
  | power isWhole => exact digits isWhole _
  | point isWhole => exact digits isWhole _
  | pointPower isWhole => exact digits isWhole _

/-- Such a number comes first just where it is found. -/
theorem Number.numberPiece {piece : Piece} (number : Number piece) {first : Char}
    (covers : piece.text ++ piece.rest = first :: chars) : Lu.numberPiece first chars = piece := by
  cases number with
  | based announced digit parts stops =>
    rw [intPiece_text, intPiece_rest] at covers
    rw [Lu.numberPiece, ← covers, basedPiece?_eq_some announced digit parts stops]
  | int isWhole stops based point power =>
    rw [intPiece_text, intPiece_rest] at covers
    rw [numberPiece_digits isWhole stops based covers, decimalPiece_no_point point,
      splitExponent?_eq_none.mpr power]
  | @power whole power rest isWhole isPower stops =>
    have notBased := not_begins_based isWhole (exponent_not_base isPower rest)
    have notPoint : ¬ Pattern.Begins (Pattern.exactly ['.'] * Pattern.digits) (power ++ rest) := by
      intro point
      obtain ⟨d, more, same, -⟩ := begins_point.mp point
      exact exponent_not_point isPower same
    rw [numberPiece_digits isWhole (exponent_not_part isPower rest) notBased
        ((List.append_assoc ..).symm.trans covers),
      decimalPiece_no_point notPoint, splitExponent?_eq_some.mpr ⟨isPower, stops, rfl⟩]
  | @point whole fraction rest isWhole isFraction stops power =>
    have covers : whole ++ '.' :: (fraction ++ rest) = first :: chars := by
      rw [← covers]
      simp [floatPiece]
    rw [numberPiece_digits isWhole (forall_head (by decide))
        (not_begins_based isWhole (forall_head (by decide))) covers,
      decimalPiece_point isFraction stops, splitExponent?_eq_none.mpr power]
  | @pointPower whole fraction power rest isWhole isFraction isPower stops =>
    have covers : whole ++ '.' :: (fraction ++ (power ++ rest)) = first :: chars := by
      rw [← covers]
      simp [floatPiece]
    rw [numberPiece_digits isWhole (forall_head (by decide))
        (not_begins_based isWhole (forall_head (by decide))) covers,
      decimalPiece_point isFraction (exponent_not_part isPower rest),
      splitExponent?_eq_some.mpr ⟨isPower, stops, rfl⟩]

/-- What a number is by the pattern that matches it. -/
theorem Number.kinds {lexeme : Lexeme} (number : Number ⟨lexeme, text, rest⟩) :
    (text ∈ Pattern.hexInt + Pattern.binInt + Pattern.digits ∧
      ((∃ n, lexeme = .token (.int n)) ∨ ∃ whole, lexeme = .error (.numberOutOfRange whole))) ∨
    (text ∈ Pattern.pointFloat + Pattern.powerFloat ∧ ∃ x, lexeme = .token (.float x)) := by
  generalize shape : (⟨lexeme, text, rest⟩ : Piece) = piece at number
  obtain rfl : piece.lexeme = lexeme := shape ▸ rfl
  obtain rfl : piece.text = text := shape ▸ rfl
  clear shape
  have whether {base : Nat} {digits whole rest : List Char} :
      (∃ n, (intPiece base digits whole rest).lexeme = .token (.int n)) ∨
        ∃ whole', (intPiece base digits whole rest).lexeme = .error (.numberOutOfRange whole') := by
    unfold intPiece
    split
    · exact .inl ⟨_, rfl⟩
    · exact .inr ⟨_, rfl⟩
  cases number with
  | based announced digit parts =>
    rw [intPiece_text]
    exact .inl ⟨.inl (Pattern.mem_based.mpr ⟨_, _, _, _, announced, digit, parts, rfl⟩), whether⟩
  | int isWhole =>
    rw [intPiece_text]
    exact .inl ⟨.inr isWhole, whether⟩
  | power isWhole isPower =>
    exact .inr ⟨Pattern.mem_float.mpr ⟨_, isWhole, .inr ⟨_, isPower, rfl⟩⟩, _, rfl⟩
  | @point whole fraction _ isWhole isFraction =>
    refine .inr ⟨Pattern.mem_float.mpr ⟨_, isWhole, .inl ⟨fraction, isFraction, [], .inl rfl, ?_⟩⟩,
      _, rfl⟩
    rw [List.append_nil]
    rfl
  | pointPower isWhole isFraction isPower =>
    exact .inr ⟨Pattern.mem_float.mpr ⟨_, isWhole, .inl ⟨_, isFraction, _, .inr isPower, rfl⟩⟩, _, rfl⟩

/-- The only error in a number is that it is out of range. -/
theorem Number.out_of_range {kind : LexErrorKind} (number : Number ⟨.error kind, text, rest⟩) :
    ∃ whole, kind = .numberOutOfRange whole := by
  rcases number.kinds with ⟨-, ⟨_, same⟩ | ⟨whole, same⟩⟩ | ⟨-, _, same⟩ <;> cases same
  exact ⟨whole, rfl⟩

theorem Number.not_gap : ¬ Number ⟨.gap, text, rest⟩ := by
  intro number
  rcases number.kinds with ⟨-, ⟨_, same⟩ | ⟨_, same⟩⟩ | ⟨-, _, same⟩ <;> cases same

end Numbers

section Strings

/-- The scanner splits off a string body. -/
theorem splitString_body (before chars : List Char) :
    ∃ body, StringBody body ∧ (splitString before chars).1 = before.reverse ++ body := by
  fun_induction splitString before chars with
  | case1 => exact ⟨[], .nil, by simp⟩
  | case2 before c rest newline ih =>
    obtain ⟨body, string, same⟩ := ih
    exact ⟨'\\' :: c :: body, .escape newline string, by simp [same]⟩
  | case3 => exact ⟨[], .nil, by simp⟩
  | case4 before c rest _ plain ih =>
    obtain ⟨body, string, same⟩ := ih
    simp only [Bool.or_eq_true, decide_eq_true_eq, not_or] at plain
    obtain ⟨⟨⟨quote, backslash⟩, newline⟩, carriage⟩ := plain
    exact ⟨c :: body, .plain quote backslash newline carriage string, by simp [same]⟩
  | case5 => exact ⟨[], .nil, by simp⟩

/-- The scanner splits off all of a string body that a text begins with, and goes on behind it. -/
theorem StringBody.splitString {body : List Char} (string : StringBody body)
    (before rest : List Char) : Lu.splitString before (body ++ rest) =
      Lu.splitString (body.reverse ++ before) rest := by
  induction string generalizing before with
  | nil => rfl
  | @plain c tail quote backslash newline carriage _ ih =>
    rw [List.cons_append, Lu.splitString.eq_2 _ _ _ fun _ _ same _ => backslash same]
    rw [if_neg (by simp [quote, backslash, newline, carriage]), ih]
    simp
  | escape newline _ ih =>
    rw [List.cons_append, List.cons_append, Lu.splitString, if_neg newline, ih]
    simp

/-- A closed string is found just where a string body stands between quotes. -/
theorem splitString_closed {chars body rest : List Char} :
    splitString [] chars = (body, '"' :: rest) ↔ StringBody body ∧ chars = body ++ '"' :: rest := by
  constructor
  · intro found
    obtain ⟨body', string, same⟩ := splitString_body [] chars
    have covers := splitString_append [] chars
    rw [found] at same covers
    obtain rfl : body = body' := same
    exact ⟨string, covers.symm⟩
  · rintro ⟨string, rfl⟩
    have notEscape : ∀ c more, '"' = '\\' → rest = c :: more → False := fun _ _ same =>
      absurd same (by decide)
    rw [string.splitString, splitString.eq_2 _ '"' rest notEscape]
    simp

end Strings

section Comments

/-- A comment ends at the first closing mark. -/
theorem splitComment?_eq_some {before chars text rest : List Char} :
    splitComment? before chars = some (text, rest) ↔
      ∃ inner, text = before.reverse ++ (inner ++ ['*', '/']) ∧
        chars = inner ++ '*' :: '/' :: rest ∧ ¬ ['*', '/'] <:+: inner ++ ['*'] := by
  fun_induction splitComment? before chars with
  | case1 before tail =>
    constructor
    · intro found
      cases found
      exact ⟨[], by simp, rfl, by simp [List.infix_cons_iff]⟩
    · rintro ⟨inner, rfl, chars, none⟩
      cases inner with
      | nil =>
        cases chars
        simp
      | cons c inner =>
        refine absurd ?_ none
        obtain ⟨rfl, tail⟩ := List.cons.inj chars
        cases inner with
        | nil => cases (List.cons.inj tail).1
        | cons d inner =>
          cases (List.cons.inj tail).1
          exact ⟨[], inner ++ ['*'], rfl⟩
  | case2 before c chars other ih =>
    rw [ih]
    constructor
    · rintro ⟨inner, rfl, rfl, none⟩
      refine ⟨c :: inner, by simp, rfl, fun early => ?_⟩
      rcases List.infix_cons_iff.mp early with front | later
      · obtain ⟨back, same⟩ := front
        simp only [List.cons_append, List.cons.injEq] at same
        obtain ⟨rfl, same⟩ := same
        cases inner with
        | nil => cases same
        | cons d inner =>
          obtain ⟨rfl, -⟩ := List.cons.inj same
          exact other _ rfl rfl
      · exact none later
    · rintro ⟨inner, rfl, same, none⟩
      cases inner with
      | nil =>
        obtain ⟨rfl, rfl⟩ := List.cons.inj same
        exact (other _ rfl rfl).elim
      | cons d inner =>
        obtain ⟨rfl, rfl⟩ := List.cons.inj same
        exact ⟨inner, by simp, rfl,
          fun early => none (early.trans (List.infix_cons (List.infix_refl _)))⟩
  | case3 =>
    constructor
    · intro found
      cases found
    · rintro ⟨inner, -, same, -⟩
      simp at same

/-- Without a closing mark there is no comment. -/
theorem splitComment?_eq_none {before chars : List Char} :
    splitComment? before chars = none ↔ ¬ ['*', '/'] <:+: chars := by
  fun_induction splitComment? before chars with
  | case1 before rest => simp [List.infix_cons_iff]
  | case2 before c chars other ih =>
    rw [ih, List.infix_cons_iff, not_or, iff_and_self]
    rintro - ⟨back, same⟩
    obtain ⟨rfl, rfl⟩ := List.cons.inj same
    exact other _ rfl rfl
  | case3 => simp

end Comments

end Lu
