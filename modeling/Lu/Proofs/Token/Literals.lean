import Lu.Proofs.Decimal.Digits
import Lu.Proofs.Token.Found

namespace Lu

/-!
Integer literals: a text that is one is read as the number that its digits stand for, or is an error of
its own if there is no such word.
-/

/-- The text is an integer literal with the digits of the base, underscores among them. -/
inductive IntLiteral : Nat → List Char → List Char → Prop
  | decimal {digits} : digits ∈ Pattern.digits → IntLiteral 10 digits digits
  | hex {digits} : '0' :: 'x' :: digits ∈ Pattern.hexInt →
      IntLiteral 16 digits ('0' :: 'x' :: digits)
  | binary {digits} : '0' :: 'b' :: digits ∈ Pattern.binInt →
      IntLiteral 2 digits ('0' :: 'b' :: digits)

/-- The number that the digits of a literal stand for, whatever underscores there are. -/
def literalValue (base : Nat) (digits : List Char) : Nat :=
  digitsValue base (withoutUnderscores digits)

section Literals

variable {base : Nat} {digits text rest : List Char} {source : String}

theorem based_digits {letter : Char} (announced : announcedBase? letter = some base)
    (based : '0' :: letter :: digits ∈ Pattern.hexInt + Pattern.binInt) :
    ∃ d ds, digits = d :: ds ∧ (digitValue? base d).isSome = true ∧
      ∀ c ∈ ds, isDigitPart base c = true := by
  obtain ⟨letter', base', d, ds, announced', digit, parts, shape⟩ := Pattern.mem_based.mp based
  obtain ⟨-, rfl, rfl⟩ : '0' = '0' ∧ letter = letter' ∧ digits = d :: ds := by simpa using shape
  obtain rfl : base = base' := Option.some.inj (announced.symm.trans announced')
  exact ⟨d, ds, rfl, digit, parts⟩

/-- A digit comes first, and behind it there are more of them and underscores. -/
theorem IntLiteral.eq_cons (literal : IntLiteral base digits text) :
    ∃ d ds, digits = d :: ds ∧ (digitValue? base d).isSome = true ∧
      ∀ c ∈ ds, isDigitPart base c = true := by
  cases literal with
  | decimal isDigits =>
    obtain ⟨d, ds, digit, parts, rfl⟩ := Pattern.mem_digits.mp isDigits
    refine ⟨d, ds, rfl, ?_, parts⟩
    rwa [isSome_digitValue?_decimal]
  | hex isHex => exact based_digits rfl (.inl isHex)
  | binary isBinary => exact based_digits rfl (.inr isBinary)

/-- Alone it is the number that the lexer finds. -/
theorem IntLiteral.number (literal : IntLiteral base digits text) :
    Number (intPiece base digits text []) := by
  have based {letter : Char} (announced : announcedBase? letter = some base)
      (literal : IntLiteral base digits ('0' :: letter :: digits)) :
      Number (intPiece base digits ('0' :: letter :: digits) []) := by
    obtain ⟨d, ds, rfl, digit, parts⟩ := literal.eq_cons
    exact .based announced digit parts nofun
  cases literal with
  | decimal isDigits =>
    refine .int isDigits nofun (not_begins_based isDigits nofun) ?_ ?_
    · rw [begins_point]
      rintro ⟨_, _, ⟨⟩, _⟩
    · rw [← splitExponent?_eq_none]
      rfl
  | hex isHex => exact based rfl (.hex isHex)
  | binary isBinary => exact based rfl (.binary isBinary)

theorem withoutUnderscores_parts (parts : ∀ c ∈ digits, isDigitPart base c = true) :
    ∀ c ∈ withoutUnderscores digits, (digitValue? base c).isSome = true := by
  intro c member
  obtain ⟨member, other⟩ := List.mem_filter.mp member
  have part := parts c member
  simp only [isDigitPart, Bool.or_eq_true, decide_eq_true_eq] at part other
  exact part.resolve_right other

/-- What it is read as. -/
theorem IntLiteral.intPiece (literal : IntLiteral base digits text) :
    Lu.intPiece base digits text rest = if literalValue base digits ≤ 2 ^ 63 - 1 then
      ⟨.token (.int (Int64.ofInt (literalValue base digits))), text, rest⟩
    else ⟨.error (.numberOutOfRange (String.ofList text)), text, rest⟩ := by
  obtain ⟨d, ds, rfl, digit, parts⟩ := literal.eq_cons
  have notUnderscore : d ≠ '_' := by
    rintro rfl
    cases digit
  have nonempty : withoutUnderscores (d :: ds) ≠ [] := by
    simp [withoutUnderscores, notUnderscore]
  have all := withoutUnderscores_parts (List.forall_mem_cons.mpr
    ⟨by rw [isDigitPart, digit, Bool.true_or], parts⟩)
  rw [Lu.intPiece, readBased_digits nonempty all, ← literalValue]
  by_cases fits : literalValue base (d :: ds) ≤ 2 ^ 63 - 1
  · rw [if_pos fits, if_pos fits]
  · rw [if_neg fits, if_neg fits]

/-- A literal whose number is a word is read as that word. -/
theorem IntLiteral.lex_fits (literal : IntLiteral base digits source.toList)
    (fits : literalValue base digits ≤ 2 ^ 63 - 1) :
    lex source = .ok [⟨.int (Int64.ofInt (literalValue base digits)),
      Span.ofRange 0 (byteLength source.toList)⟩, endToken (byteLength source.toList)] := by
  have number := literal.number
  rw [literal.intPiece, if_pos fits] at number
  have lexes : Lexes 0 (source.toList ++ []) [_] _ [] := .token number.leads .here
  rw [List.append_nil, Nat.zero_add] at lexes
  exact lex_eq_ok.mpr ⟨_, _, lexes, rfl⟩

/-- A literal whose number is too large is an error. -/
theorem IntLiteral.lex_large (literal : IntLiteral base digits source.toList)
    (large : 2 ^ 63 - 1 < literalValue base digits) :
    lex source = .error ⟨.numberOutOfRange source, Span.ofRange 0 (byteLength source.toList)⟩ := by
  have number := literal.number
  rw [literal.intPiece, if_neg (by omega), String.ofList_toList] at number
  refine lex_eq_error.mpr ⟨[], 0, source.toList, [], ?_, number.leads, ?_⟩
  · rw [List.append_nil]
    exact .here
  · rw [Nat.zero_add]

end Literals

/-- An integer literal alone is one token of the number that its digits stand for in its base, if that
is a word of 64 bits; if not, it is an error with its text. Below `2 ^ 32` bytes the span is that of all
of the text, and from there on the last offset stands for it. -/
theorem integer_literal_means_its_digits {base : Nat} {digits : List Char} {source : String}
    (literal : IntLiteral base digits source.toList) :
    ∃ span, (byteLength source.toList < 2 ^ 32 → span = ⟨0, byteLength source.toList⟩) ∧
      (2 ^ 32 ≤ byteLength source.toList → span = .point Span.lastOffset) ∧
      (literalValue base digits ≤ 2 ^ 63 - 1 → ∃ n : Int64, n.toInt = literalValue base digits ∧
        lex source = .ok [⟨.int n, span⟩, endToken (byteLength source.toList)]) ∧
      (2 ^ 63 - 1 < literalValue base digits →
        lex source = .error ⟨.numberOutOfRange source, span⟩) := by
  refine ⟨Span.ofRange 0 (byteLength source.toList), fun short => ?_, Span.ofRange_eq_point,
    fun fits => ?_, literal.lex_large⟩
  · exact Span.ofRange_eq (Nat.zero_le _) (Nat.le_of_lt_succ short)
  · exact ⟨_, Int64.toInt_ofInt_of_le (by omega) (by omega), literal.lex_fits fits⟩

/-- The greatest word with a leading zero, and the number above it, in groups of four digits. -/
theorem grouped_literals_mean_digits :
    (∃ n : Int64, n.toInt = 2 ^ 63 - 1 ∧
      lex "0x07fff_FFFF_ffff_ffff_" = .ok [⟨.int n, ⟨0, 23⟩⟩, endToken 23]) ∧
    lex "9223_3720_3685_4775_808" = .error ⟨.numberOutOfRange "9223_3720_3685_4775_808", ⟨0, 23⟩⟩ := by
  have hex : IntLiteral 16 "07fff_FFFF_ffff_ffff_".toList "0x07fff_FFFF_ffff_ffff_".toList := by
    have digits : "0x07fff_FFFF_ffff_ffff_".toList ∈ Pattern.hexInt := by
      rw [Pattern.hexInt, mul_assoc, Pattern.mem_exactly_mul]
      refine ⟨_, Pattern.mem_one_mul.mpr ⟨'0', by decide, _, Pattern.mem_one_star.mpr ?_, rfl⟩, rfl⟩
      exact List.all_eq_true.mp (by decide +kernel)
    exact .hex digits
  have decimal : IntLiteral 10 "9223_3720_3685_4775_808".toList "9223_3720_3685_4775_808".toList :=
    .decimal (Pattern.mem_digits.mpr ⟨'9', _, rfl, List.all_eq_true.mp (by decide +kernel), rfl⟩)
  have greatest : literalValue 16 "07fff_FFFF_ffff_ffff_".toList = 2 ^ 63 - 1 := by decide +kernel
  have above : 2 ^ 63 - 1 < literalValue 10 "9223_3720_3685_4775_808".toList := by decide +kernel
  have hexBytes : byteLength "0x07fff_FFFF_ffff_ffff_".toList = 23 := by decide +kernel
  have decimalBytes : byteLength "9223_3720_3685_4775_808".toList = 23 := by decide +kernel
  obtain ⟨hexSpan, hexPlace, -, fits, -⟩ := integer_literal_means_its_digits hex
  obtain ⟨decimalSpan, decimalPlace, -, -, large⟩ := integer_literal_means_its_digits decimal
  rw [hexBytes] at hexPlace fits
  rw [decimalBytes] at decimalPlace
  obtain rfl := hexPlace (by decide)
  obtain rfl := decimalPlace (by decide)
  obtain ⟨n, value, lexed⟩ := fits greatest.le
  exact ⟨⟨n, by rw [value, greatest]; rfl, lexed⟩, large above⟩

section Long

variable {count : Nat}

theorem nines_literal (positive : 0 < count) :
    IntLiteral 10 (List.replicate count '9') (List.replicate count '9') := by
  obtain ⟨more, rfl⟩ := Nat.exists_eq_add_of_lt positive
  rw [Nat.zero_add, List.replicate_succ]
  refine .decimal (Pattern.mem_digits.mpr ⟨'9', _, rfl, fun c member => ?_, rfl⟩)
  obtain rfl := List.eq_of_mem_replicate member
  rfl

theorem nines_value_large (many : 20 ≤ count) :
    2 ^ 63 - 1 < literalValue 10 (List.replicate count '9') := by
  obtain ⟨more, rfl⟩ := Nat.exists_eq_add_of_le many
  have first : 10 ^ 19 ≤ 10 ^ (19 + more) := Nat.pow_le_pow_right (by decide) (by omega)
  have rank : digitRank '9' = 9 := by decide
  have kept : withoutUnderscores (List.replicate (20 + more) '9') =
      '9' :: List.replicate (19 + more) '9' := by
    rw [withoutUnderscores, List.filter_replicate_of_pos (by decide), ← List.replicate_succ]
    congr 1
    omega
  rw [literalValue, kept, digitsValue_cons, rank, List.length_replicate]
  omega

end Long

/-- As many nines as no span is long. -/
def longLiteral : String := String.ofList (List.replicate (2 ^ 32) '9')

/-- An error on a literal that is too long for a span has the text of the literal, but not its span. -/
theorem long_literal_loses_its_span :
    IntLiteral 10 longLiteral.toList longLiteral.toList ∧
      2 ^ 63 - 1 < literalValue 10 longLiteral.toList ∧
      byteLength longLiteral.toList = 4294967296 ∧
      lex longLiteral = .error ⟨.numberOutOfRange longLiteral, ⟨4294967295, 4294967295⟩⟩ ∧
      lex longLiteral ≠ .error ⟨.numberOutOfRange longLiteral, ⟨0, 4294967296⟩⟩ := by
  have text : longLiteral.toList = List.replicate (2 ^ 32) '9' := String.toList_ofList
  have literal : IntLiteral 10 longLiteral.toList longLiteral.toList := by
    rw [text]
    exact nines_literal (by decide)
  have large : 2 ^ 63 - 1 < literalValue 10 longLiteral.toList := by
    rw [text]
    exact nines_value_large (by decide)
  have bytes : byteLength longLiteral.toList = 4294967296 := by
    rw [text, byteLength_replicate]
    rfl
  have lexed : lex longLiteral =
      .error ⟨.numberOutOfRange longLiteral, ⟨4294967295, 4294967295⟩⟩ := by
    rw [literal.lex_large large, bytes]
    rfl
  refine ⟨literal, large, bytes, lexed, ?_⟩
  rw [lexed]
  simp

end Lu
