import Lu.Proofs.Token.Found

namespace Lu

/-!
The lexer takes the longest text that any of its patterns matches, and reports an error just where they
all fail or where a string or a comment goes wrong.
-/

section Numbers

variable {front text rest : List Char}

theorem digits_parts (isDigits : text ∈ Pattern.digits) : ∀ c ∈ text, isDigitPart 10 c = true := by
  obtain ⟨d, ds, digit, parts, rfl⟩ := Pattern.mem_digits.mp isDigits
  refine List.forall_mem_cons.mpr ⟨?_, parts⟩
  rw [isDigitPart_decimal, digit, Bool.true_or]

theorem exponent_longest {power : List Char} (isPower : power ∈ Pattern.exponent)
    (stops : ∀ c ∈ rest.head?, c.isDigit = false) :
    Pattern.Longest Pattern.exponent power rest := by
  rintro front isFront ⟨back, covers⟩
  have split : splitExponent? (power ++ rest) = some (power, rest) :=
    splitExponent?_eq_some.mpr ⟨isPower, stops, rfl⟩
  rw [← covers, splitExponent?_begins isFront] at split
  have same : front ++ back.takeWhile Char.isDigit = power := congrArg Prod.fst (Option.some.inj split)
  rw [← same, List.length_append]
  omega

/-- A decimal number: digits, and behind them nothing, a fraction or an exponent. -/
theorem decimal_cases (decimal : front ∈ Pattern.digits + (Pattern.pointFloat + Pattern.powerFloat)) :
    ∃ whole ∈ Pattern.digits, front = whole ∨
      (∃ fraction ∈ Pattern.digits, ∃ power, (power = [] ∨ power ∈ Pattern.exponent) ∧
        front = whole ++ '.' :: (fraction ++ power)) ∨
      ∃ power ∈ Pattern.exponent, front = whole ++ power := by
  rcases decimal with isDigits | isFloat
  · exact ⟨front, isDigits, .inl rfl⟩
  · obtain ⟨whole, isWhole, float⟩ := Pattern.mem_float.mp isFloat
    exact ⟨whole, isWhole, .inr float⟩

/-- What comes behind the digits of a number decides how far any decimal number reaches. -/
theorem decimal_longest {whole back : List Char} (isWhole : whole ∈ Pattern.digits)
    (stops : ∀ c ∈ back.head?, isDigitPart 10 c = false) {longest : Nat}
    (point : ∀ fraction ∈ Pattern.digits, ∀ power, (power = [] ∨ power ∈ Pattern.exponent) →
      '.' :: (fraction ++ power) <+: back → (fraction ++ power).length + 1 ≤ longest)
    (power : ∀ power ∈ Pattern.exponent, power <+: back → power.length ≤ longest)
    (decimal : front ∈ Pattern.digits + (Pattern.pointFloat + Pattern.powerFloat))
    (begins : front <+: whole ++ back) : front.length ≤ whole.length + longest := by
  have parts := digits_parts isWhole
  obtain ⟨digits, isDigits, rfl | ⟨fraction, isFraction, exponent, isExponent, rfl⟩ |
    ⟨exponent, isExponent, rfl⟩⟩ := decimal_cases decimal
  · have within := prefix_of_class (digits_parts isDigits) stops begins
    have le := within.length_le
    omega
  · obtain ⟨rfl, after⟩ := class_ends parts stops (digits_parts isDigits) (by decide) begins
    have le := point fraction isFraction exponent isExponent after
    rw [List.length_append, List.length_cons]
    omega
  · cases shape : exponent with
    | nil =>
      subst shape
      exact absurd isExponent (by simp [Pattern.mem_exponent])
    | cons e more =>
      have other := exponent_not_part isExponent [] e (by rw [shape]; rfl)
      rw [shape] at begins
      obtain ⟨rfl, after⟩ := class_ends parts stops (digits_parts isDigits) other begins
      have le := power exponent isExponent (shape ▸ after)
      rw [← shape, List.length_append]
      omega

theorem base_letter {letter : Char} {base : Nat} (announced : announcedBase? letter = some base) :
    isDigitPart 10 letter = false ∧ letter ≠ '.' ∧ letter ≠ 'e' ∧ letter ≠ 'E' := by
  unfold announcedBase? at announced
  split at announced <;> first | decide | cases announced

theorem fraction_longest {fraction rest front power : List Char} (isFraction : fraction ∈ Pattern.digits)
    (stops : ∀ c ∈ rest.head?, isDigitPart 10 c = false) (isFront : front ∈ Pattern.digits)
    (isPower : power = [] ∨ power ∈ Pattern.exponent)
    (begins : '.' :: (front ++ power) <+: '.' :: (fraction ++ rest)) :
    front.length ≤ fraction.length ∧ (power ≠ [] → front = fraction ∧ power <+: rest) := by
  have begins := (List.cons_prefix_cons.mp begins).2
  have within := prefix_of_class (digits_parts isFront) stops ((List.prefix_append ..).trans begins)
  refine ⟨within.length_le, fun nonempty => ?_⟩
  obtain ⟨e, more, rfl⟩ := List.exists_cons_of_ne_nil nonempty
  have other := exponent_not_part (isPower.resolve_left nonempty) [] e rfl
  exact class_ends (digits_parts isFraction) stops (digits_parts isFront) other begins

/-- Behind a fraction it is the power that decides. -/
theorem pointed_longest {whole fraction back : List Char} (isWhole : whole ∈ Pattern.digits)
    (isFraction : fraction ∈ Pattern.digits) (stops : ∀ c ∈ back.head?, isDigitPart 10 c = false)
    {longest : Nat} (power : ∀ power ∈ Pattern.exponent, power <+: back → power.length ≤ longest)
    (decimal : front ∈ Pattern.digits + (Pattern.pointFloat + Pattern.powerFloat))
    (begins : front <+: whole ++ '.' :: (fraction ++ back)) :
    front.length ≤ whole.length + (fraction.length + longest + 1) := by
  refine decimal_longest isWhole (forall_head (by decide))
    (fun front isFront exponent isExponent after => ?_) (fun exponent isExponent after => ?_)
    decimal begins
  · obtain ⟨le, exact⟩ := fraction_longest isFraction stops isFront isExponent after
    rw [List.length_append]
    by_cases empty : exponent = []
    · rw [empty, List.length_nil]
      omega
    · have le' := power exponent (isExponent.resolve_left empty) (exact empty).2
      omega
  · obtain ⟨back, same⟩ := after
    exact absurd same (exponent_not_point isExponent)

/-- No number with a base is longer than the one found. -/
theorem Number.longest_based {piece : Piece} (number : Number piece) :
    Pattern.Longest (Pattern.hexInt + Pattern.binInt) piece.text piece.rest := by
  intro front based begins
  have begun : Pattern.Begins (Pattern.hexInt + Pattern.binInt) (piece.text ++ piece.rest) :=
    ⟨front, based, begins⟩
  cases number with
  | @based letter base d ds rest announced digit parts stops =>
    rw [intPiece_text, intPiece_rest] at begins
    rw [intPiece_text]
    obtain ⟨letter', base', d', ds', announced', digit', parts', rfl⟩ := Pattern.mem_based.mp based
    simp only [List.cons_append, List.cons_prefix_cons, true_and] at begins
    obtain ⟨rfl, rfl, begins⟩ := begins
    rw [announced] at announced'
    cases announced'
    have le := (prefix_of_class parts' stops begins).length_le
    simp only [List.length_cons]
    omega
  | int isWhole stops none =>
    rw [intPiece_text, intPiece_rest] at begun
    exact (none begun).elim
  | @power whole power rest isWhole isPower =>
    simp only [floatPiece, List.append_assoc] at begun
    exact (not_begins_based isWhole (exponent_not_base isPower rest) begun).elim
  | @point whole fraction rest isWhole isFraction =>
    simp only [floatPiece, List.append_assoc, List.cons_append] at begun
    exact (not_begins_based isWhole (forall_head (by decide)) begun).elim
  | @pointPower whole fraction power rest isWhole isFraction =>
    simp only [floatPiece, List.append_assoc, List.cons_append] at begun
    exact (not_begins_based isWhole (forall_head (by decide)) begun).elim

/-- No decimal number is longer than the one found. -/
theorem Number.longest_decimal {piece : Piece} (number : Number piece) :
    Pattern.Longest (Pattern.digits + (Pattern.pointFloat + Pattern.powerFloat)) piece.text
      piece.rest := by
  intro front decimal begins
  cases number with
  | @based letter base d ds rest announced digit parts stops =>
    rw [intPiece_text, intPiece_rest] at begins
    obtain ⟨notPart, notPoint, notE⟩ := base_letter announced
    have zero : ['0'] ∈ Pattern.digits := Pattern.mem_digits.mpr ⟨'0', [], rfl, nofun, rfl⟩
    have le : front.length ≤ ['0'].length + 0 := by
      refine decimal_longest zero (forall_head notPart) (fun _ _ _ _ after => ?_)
        (fun power isPower after => ?_) decimal begins
      · exact absurd (List.cons_prefix_cons.mp after).1.symm notPoint
      · obtain ⟨back, same⟩ := after
        rcases exponent_head isPower back letter (by rw [same]; rfl) with isE | isE
        · exact (notE.1 isE).elim
        · exact (notE.2 isE).elim
    rw [intPiece_text]
    simp only [List.length_cons, List.length_nil] at le ⊢
    omega
  | @int whole rest isWhole stops none point power =>
    rw [intPiece_text, intPiece_rest] at begins
    rw [intPiece_text]
    have le : front.length ≤ whole.length + 0 := by
      refine decimal_longest isWhole stops (fun fraction isFraction power _ after => ?_)
        (fun exponent isExponent after => ?_) decimal begins
      · have fractioned : '.' :: fraction ∈ Pattern.exactly ['.'] * Pattern.digits :=
          Pattern.mem_exactly_mul.mpr ⟨fraction, isFraction, rfl⟩
        have front : '.' :: fraction <+: '.' :: (fraction ++ power) := List.prefix_append ..
        exact (point ⟨_, fractioned, front.trans after⟩).elim
      · exact (power ⟨exponent, isExponent, after⟩).elim
    exact le
  | @power whole power rest isWhole isPower stops =>
    simp only [floatPiece, List.append_assoc, List.length_append] at begins ⊢
    refine decimal_longest isWhole (exponent_not_part isPower rest) (fun _ _ _ _ after => ?_)
      (exponent_longest isPower stops) decimal begins
    obtain ⟨back, same⟩ := after
    exact absurd same.symm (exponent_not_point isPower)
  | @point whole fraction rest isWhole isFraction stops none =>
    simp only [floatPiece, List.append_assoc, List.cons_append, List.length_append,
      List.length_cons] at begins ⊢
    have empty : ∀ power ∈ Pattern.exponent, power <+: rest → power.length ≤ 0 :=
      fun power isPower after => (none ⟨power, isPower, after⟩).elim
    exact pointed_longest isWhole isFraction stops empty decimal begins
  | @pointPower whole fraction exponent rest isWhole isFraction isExponent stops =>
    simp only [floatPiece, List.append_assoc, List.cons_append, List.length_append,
      List.length_cons] at begins ⊢
    have le := pointed_longest isWhole isFraction (exponent_not_part isExponent rest)
      (exponent_longest isExponent stops) decimal begins
    omega

/-- No pattern of a number matches more than the number that the lexer finds. -/
theorem Number.longest {lexeme : Lexeme} (number : Number ⟨lexeme, text, rest⟩) :
    Pattern.Longest Pattern.number text rest := by
  rintro front (based | decimal) begins
  · exact number.longest_based front based begins
  · exact number.longest_decimal front decimal begins

end Numbers

section Shapes

/-- What a character can be the first of. -/
inductive Opening
  | space | number | word | string | mark

def opening (c : Char) : Opening :=
  if isSpace c then .space
  else if c.isDigit then .number
  else if isIdentStart c then .word
  else if c = '"' then .string
  else .mark

variable {c : Char} {front text rest : List Char}

theorem opening_of_digit (digit : c.isDigit = true) : opening c = .number := by
  rw [opening, not_space_of_digit digit, digit]
  rfl

theorem opening_of_start (start : isIdentStart c = true) : opening c = .word := by
  rw [opening, not_space_of_start start, not_digit_of_start start, start]
  rfl

theorem opening_of_mark (begins : BeginsMark c) : opening c = .mark := by
  obtain ⟨space, digit, start, quote⟩ := begins
  rw [opening, space, digit, start, if_neg quote]
  rfl

/-- What a text looks like that begins with the character and that some pattern matches. -/
def Shaped (front : List Char) (c : Char) : Prop :=
  match opening c with
  | .space => True
  | .number => front ∈ Pattern.number
  | .word => ∀ d ∈ front, isIdentPart d = true
  | .string => ∃ body, StringBody body ∧ (front = '"' :: body ∨ front = '"' :: body ++ ['"'])
  | .mark => (∃ m : Mark, front = m.text.toList) ∨ front = ['/', '*'] ∨
    ∃ body, front = '/' :: '/' :: body

theorem number_shaped (number : front ∈ Pattern.number) : ∃ c cs, front = c :: cs ∧ Shaped front c := by
  have digits : ∃ d ds, d.isDigit = true ∧ front = d :: ds := by
    rcases number with based | decimal
    · obtain ⟨letter, base, d, ds, -, -, -, rfl⟩ := Pattern.mem_based.mp based
      exact ⟨'0', _, rfl, rfl⟩
    · obtain ⟨whole, isWhole, shape⟩ := decimal_cases decimal
      obtain ⟨d, ds, digit, -, rfl⟩ := Pattern.mem_digits.mp isWhole
      obtain rfl | ⟨_, _, _, _, rfl⟩ | ⟨_, _, rfl⟩ := shape
      · exact ⟨d, _, digit, rfl⟩
      · exact ⟨d, _, digit, rfl⟩
      · exact ⟨d, _, digit, rfl⟩
  obtain ⟨d, ds, digit, rfl⟩ := digits
  refine ⟨d, ds, rfl, ?_⟩
  rw [Shaped, opening_of_digit digit]
  exact number

theorem word_shaped {cs : List Char} (start : isIdentStart c = true)
    (parts : ∀ d ∈ cs, isIdentPart d = true) : Shaped (c :: cs) c := by
  rw [Shaped, opening_of_start start]
  exact List.forall_mem_cons.mpr ⟨isIdentPart_of_start start, parts⟩

theorem word_of_spelling {text : List Char} (start : text.head?.any isIdentStart = true)
    (parts : text.all isIdentPart = true) :
    ∃ c cs, text = c :: cs ∧ isIdentStart c = true ∧ ∀ d ∈ cs, isIdentPart d = true := by
  cases text with
  | nil => cases start
  | cons c cs =>
    exact ⟨c, cs, rfl, by simpa using start, (List.forall_mem_cons.mp (List.all_eq_true.mp parts)).2⟩

theorem mark_shaped (m : Mark) : ∃ c cs, m.text.toList = c :: cs ∧ Shaped m.text.toList c := by
  obtain ⟨c, cs, shape, begins⟩ : ∃ c cs, m.text.toList = c :: cs ∧ BeginsMark c := by
    rcases m.text_cases with ⟨first, shape, -, begins⟩ | ⟨first, second, shape, -, begins⟩
    · exact ⟨first, [], shape, begins⟩
    · exact ⟨first, [second], shape, begins⟩
  refine ⟨c, cs, shape, ?_⟩
  rw [Shaped, opening_of_mark begins]
  exact .inl ⟨m, rfl⟩

theorem any_shaped (matched : front ∈ Pattern.any) : ∃ c cs, front = c :: cs ∧ Shaped front c := by
  rcases matched with ((⟨kind, token⟩ | unclosed) | opened) | spaces | line
  · cases kind with
    | int =>
      rcases token with based | digits
      · exact number_shaped (.inl based)
      · exact number_shaped (.inr (.inl digits))
    | float => exact number_shaped (.inr (.inr token))
    | str =>
      obtain ⟨body, string, rfl⟩ := Pattern.mem_closedString.mp token
      exact ⟨'"', body ++ ['"'], rfl, body, string, .inr rfl⟩
    | ident =>
      obtain ⟨c, cs, start, parts, rfl⟩ := Pattern.mem_identifier.mp token
      exact ⟨c, cs, rfl, word_shaped start parts⟩
    | keyword k =>
      obtain rfl := token
      obtain ⟨c, cs, shape, start, parts⟩ := word_of_spelling k.spelling_word.1 k.spelling_word.2
      exact ⟨c, cs, shape, shape ▸ word_shaped start parts⟩
    | mark m =>
      obtain rfl := token
      exact mark_shaped m
    | eof => exact token.elim
  · obtain ⟨body, string, rfl⟩ := Pattern.mem_openString.mp unclosed
    exact ⟨'"', body, rfl, body, string, .inl rfl⟩
  · obtain rfl := opened
    exact ⟨'/', ['*'], rfl, .inr (.inl rfl)⟩
  · obtain ⟨c, cs, space, -, rfl⟩ := Pattern.mem_spaces.mp spaces
    refine ⟨c, cs, rfl, ?_⟩
    rw [Shaped, opening, if_pos space]
    trivial
  · obtain ⟨body, -, rfl⟩ := Pattern.mem_lineComment.mp line
    exact ⟨'/', '/' :: body, rfl, .inr (.inr ⟨body, rfl⟩)⟩

end Shapes

section Tokens

variable {front text rest : List Char} {lexeme : Lexeme} {kind : TokenKind}

/-- The text of a token is matched by the pattern of its kind. -/
theorem Found.matched (found : Found (.token kind) text rest) : text ∈ kind.pattern := by
  generalize isToken : Lexeme.token kind = lexeme at found
  cases found with
  | number number =>
    subst isToken
    rcases number.kinds with ⟨isInt, ⟨n, same⟩ | ⟨whole, same⟩⟩ | ⟨isFloat, x, same⟩
    · cases same
      exact isInt
    · cases same
    · cases same
      exact isFloat
  | keyword =>
    cases isToken
    exact rfl
  | identifier name =>
    cases isToken
    obtain ⟨c, cs, shape, start, parts⟩ := word_of_spelling name.1 name.2.1
    exact Pattern.mem_identifier.mpr ⟨c, cs, start, parts, shape⟩
  | string string =>
    cases isToken
    exact Pattern.mem_closedString.mpr ⟨_, string, rfl⟩
  | single single =>
    cases isToken
    exact (simpleMark?_spelled single).1.symm
  | double double =>
    cases isToken
    exact (doubleMark?_spelled double).1.symm
  | _ => cases isToken

/-- Two string bodies in front of one text: the one with a closing quote behind it is not the shorter. -/
theorem StringBody.longest {body other : List Char} (string : StringBody body)
    (begins : body <+: other ++ '"' :: rest) (closed : StringBody other) :
    body.length ≤ other.length := by
  obtain ⟨back, covers⟩ := begins
  have split : Lu.splitString [] (body ++ back) = (other, '"' :: rest) :=
    splitString_closed.mpr ⟨closed, covers⟩
  obtain ⟨more, -, same⟩ := splitString_body (body.reverse ++ []) back
  rw [string.splitString] at split
  rw [split] at same
  simp only [List.append_nil, List.reverse_reverse] at same
  rw [same, List.length_append]
  omega

/-- What is longer than a mark of one character would be a mark of two or the beginning of a comment, and
neither comes here. -/
theorem single_longest {first : Char} {m : Mark} {cs : List Char} (single : simpleMark? first = some m)
    (alone : ∀ c ∈ rest.head?, doubleMark? first c = none)
    (slash : first = '/' → ∀ c ∈ rest.head?, c ≠ '/' ∧ c ≠ '*') (after : cs <+: rest)
    (shaped : (∃ m : Mark, first :: cs = m.text.toList) ∨ first :: cs = ['/', '*'] ∨
      ∃ body, first :: cs = '/' :: '/' :: body) : cs = [] := by
  cases cs with
  | nil => rfl
  | cons second cs =>
    have next : second ∈ rest.head? := by
      obtain ⟨back, rfl⟩ := after
      rfl
    rcases shaped with ⟨other, same⟩ | same | ⟨body, same⟩
    · rcases other.text_cases with ⟨_, spelled, -⟩ | ⟨_, _, spelled, double, -⟩
      · rw [spelled] at same
        cases same
      · rw [spelled] at same
        cases same
        rw [alone _ next] at double
        cases double
    · cases same
      exact ((slash rfl '*' next).2 rfl).elim
    · cases same
      exact ((slash rfl '/' next).1 rfl).elim

/-- No pattern at all matches more than the text of the token. -/
theorem Found.longest (found : Found (.token kind) text rest) :
    Pattern.Longest Pattern.any text rest := by
  intro front matched begins
  obtain ⟨c, cs, rfl, shaped⟩ := any_shaped matched
  have word {d : Char} {ds : List Char} (start : isIdentStart d = true)
      (stops : ∀ c ∈ rest.head?, isIdentPart c = false) (shape : text = d :: ds) :
      (c :: cs).length ≤ text.length := by
    subst shape
    obtain rfl := (List.cons_prefix_cons.mp begins).1
    rw [Shaped, opening_of_start start] at shaped
    exact (prefix_of_class shaped stops begins).length_le
  generalize isToken : Lexeme.token kind = lexeme at found
  cases found with
  | number number =>
    obtain ⟨d, ds, digit, rfl⟩ := number.digit
    obtain rfl := (List.cons_prefix_cons.mp begins).1
    rw [Shaped, opening_of_digit digit] at shaped
    exact number.longest _ shaped begins
  | @keyword k _ stops =>
    obtain ⟨d, ds, shape, start, -⟩ := word_of_spelling k.spelling_word.1 k.spelling_word.2
    exact word start stops shape
  | identifier name stops =>
    obtain ⟨d, ds, shape, start, -⟩ := word_of_spelling name.1 name.2.1
    exact word start stops shape
  | @string body _ _ string =>
    obtain rfl := (List.cons_prefix_cons.mp begins).1
    obtain ⟨other, isBody, same⟩ := shaped
    have begun : other <+: body ++ '"' :: rest := by
      have open' : '"' :: other <+: '"' :: cs := by
        rcases same with same | same <;> rw [same]
        exact List.prefix_append ..
      have whole := open'.trans begins
      rw [List.cons_append, List.cons_append, List.append_assoc] at whole
      exact (List.cons_prefix_cons.mp whole).2
    have le := isBody.longest begun string
    rcases same with same | same <;> rw [same] <;>
      simp only [List.length_append, List.length_cons, List.length_nil] <;> omega
  | @single first m _ single alone slash =>
    obtain ⟨rfl, after⟩ := List.cons_prefix_cons.mp begins
    rw [Shaped, opening_of_mark (simpleMark?_spelled single).2] at shaped
    rw [single_longest single alone slash after shaped]
  | @double first second m _ double =>
    obtain rfl := (List.cons_prefix_cons.mp begins).1
    rw [Shaped, opening_of_mark (doubleMark?_spelled double).2] at shaped
    rcases shaped with ⟨other, same⟩ | same | ⟨body, same⟩
    · rcases other.text_cases with ⟨_, spelled, -⟩ | ⟨_, _, spelled, -⟩ <;> rw [same, spelled] <;> simp
    · cases same
      cases double
    · cases same
      cases double
  | _ => cases isToken

/-- What is spelled like a keyword is that keyword. -/
theorem Found.keyword_first {k : Keyword} (found : Found (.token kind) k.text.toList rest) :
    kind = .keyword k := by
  obtain ⟨c, cs, spelled, start, -⟩ := word_of_spelling k.spelling_word.1 k.spelling_word.2
  have notMark {first : Char} {more : List Char} (shape : k.text.toList = first :: more) :
      ¬ BeginsMark first := by
    intro begins
    rw [spelled] at shape
    cases shape
    rw [begins.2.2.1] at start
    cases start
  generalize isToken : Lexeme.token kind = lexeme at found
  generalize shape : k.text.toList = text at found
  cases found with
  | number number =>
    obtain ⟨d, ds, digit, rfl⟩ := number.digit
    rw [spelled] at shape
    cases shape
    rw [not_digit_of_start start] at digit
    cases digit
  | @keyword k' =>
    cases isToken
    have same := Keyword.ofText?_text k
    rw [String.toList_inj.mp shape, Keyword.ofText?_text] at same
    rw [Option.some.inj same]
  | identifier name =>
    have same := Keyword.ofText?_text k
    rw [String.toList_inj.mp shape, name.2.2] at same
    cases same
  | string =>
    rw [spelled] at shape
    cases shape
    exact absurd start (by decide)
  | single single => exact (notMark shape (simpleMark?_spelled single).2).elim
  | double double => exact (notMark shape (doubleMark?_spelled double).2).elim
  | _ => cases isToken

end Tokens

section Errors

variable {text rest : List Char} {lexeme : Lexeme}

/-- No pattern matches at a character that is reported as invalid. -/
theorem Found.not_begins {c : Char} (found : Found (.error (.invalidCharacter c)) text rest) :
    text = [c] ∧ ¬ Pattern.Begins Pattern.any (text ++ rest) := by
  generalize isError : Lexeme.error (.invalidCharacter c) = lexeme at found
  cases found with
  | number number =>
    subst isError
    obtain ⟨_, ⟨⟩⟩ := number.out_of_range
  | invalid begins none alone =>
    cases isError
    refine ⟨rfl, ?_⟩
    rintro ⟨front, matched, within⟩
    obtain ⟨d, ds, rfl, shaped⟩ := any_shaped matched
    obtain ⟨rfl, after⟩ := List.cons_prefix_cons.mp within
    rw [Shaped, opening_of_mark begins] at shaped
    rcases shaped with ⟨m, same⟩ | same | ⟨body, same⟩
    · rcases m.text_cases with ⟨first, spelled, single, -⟩ | ⟨first, second, spelled, double, -⟩
      · rw [spelled] at same
        cases same
        rw [none] at single
        cases single
      · rw [spelled] at same
        cases same
        obtain ⟨back, same⟩ := after
        rw [alone second (by rw [show rest = second :: ([] ++ back) from same.symm]; rfl)] at double
        cases double
    · cases same
      cases none
    · cases same
      cases none
  | _ => cases isError

/-- At all others one does. -/
theorem Found.begins (found : Found lexeme text rest)
    (other : ∀ c, lexeme ≠ .error (.invalidCharacter c)) :
    Pattern.Begins Pattern.any (text ++ rest) := by
  have whole {pattern : List Char} (matched : pattern ∈ Pattern.any) (within : pattern <+: text) :
      Pattern.Begins Pattern.any (text ++ rest) :=
    ⟨pattern, matched, within.trans (List.prefix_append ..)⟩
  have token {kind : TokenKind} (matched : text ∈ kind.pattern) :
      Pattern.Begins Pattern.any (text ++ rest) :=
    whole (.inl (.inl (.inl ⟨kind, matched⟩))) (List.prefix_refl _)
  cases found with
  | spaces spaces => exact whole (.inr (.inl spaces)) (List.prefix_refl _)
  | lineComment line => exact whole (.inr (.inr line)) (List.prefix_refl _)
  | blockComment => exact whole (.inl (.inr rfl)) ⟨_, rfl⟩
  | openComment => exact whole (.inl (.inr rfl)) ⟨_, rfl⟩
  | number number =>
    rcases number.kinds with ⟨isInt, -⟩ | ⟨isFloat, -⟩
    · exact @token (.int 0) isInt
    · exact @token (.float 0) isFloat
  | keyword stops => exact token (Found.keyword stops).matched
  | identifier name stops => exact token (Found.identifier name stops).matched
  | string string read => exact token (@Found.string _ _ rest string read).matched
  | badString string => exact @token (.str "") (Pattern.mem_closedString.mpr ⟨_, string, rfl⟩)
  | openString string =>
    exact whole (.inl (.inl (.inr (Pattern.mem_openString.mpr ⟨_, string, rfl⟩)))) (List.prefix_refl _)
  | single single alone slash => exact token (Found.single single alone slash).matched
  | double double => exact token (@Found.double _ _ _ rest double).matched
  | invalid => exact (other _ rfl).elim

theorem escaped?_eq_none {c : Char} :
    escaped? c = none ↔ c ∉ ['n', 'r', 't', '\\', '"', '0'] := by
  unfold escaped?
  split <;> simp_all

/-- The escapes of a string are those of its items that begin with a backslash. -/
theorem unescape_items {items : List (List Char)} (each : ∀ item ∈ items, item ∈ Pattern.stringItem)
    (decoded : List Char) : (∃ c, unescape decoded items.flatten = .error c) ↔
      ∃ c, ['\\', c] ∈ items ∧ c ∉ ['n', 'r', 't', '\\', '"', '0'] := by
  induction items generalizing decoded with
  | nil => simp [unescape]
  | cons item items ih =>
    obtain ⟨isItem, others⟩ := List.forall_mem_cons.mp each
    rcases isItem with ⟨c, plain, rfl⟩ | escape
    · simp only [Bool.and_eq_true, bne_iff_ne] at plain
      simp [unescape, plain.1.1.2, ih others]
    · obtain ⟨_, ⟨c, -, rfl⟩, rfl⟩ := Pattern.mem_exactly_mul.mp escape
      cases read : escaped? c with
      | none =>
        have bad := escaped?_eq_none.mp read
        refine iff_of_true ⟨c, ?_⟩ ⟨c, List.mem_cons_self .., bad⟩
        simp [unescape, read]
      | some meant =>
        have good : ¬ c ∉ ['n', 'r', 't', '\\', '"', '0'] := fun bad => by
          rw [escaped?_eq_none.mpr bad] at read
          cases read
        have step : unescape decoded ((['\\'] ++ [c]) :: items).flatten =
            unescape (meant :: decoded) items.flatten := by
          simp [unescape, read]
        rw [step, ih others]
        refine exists_congr fun d => and_congr_left fun bad => ?_
        have differ : d ≠ c := fun same => good (same ▸ bad)
        simp [differ]

/-- Coming to a place with the text ahead of it, the lexer reports the error there. -/
def Reports (source : String) (kind : LexErrorKind) (place : Nat) (ahead : List Char) : Prop :=
  ∃ tokens text rest, Lexes 0 source.toList tokens place ahead ∧ ahead = text ++ rest ∧
    (Lexeme.error kind).Leads text rest ∧
    lex source = .error ⟨kind, Span.ofRange place (place + byteLength text)⟩

variable {source : String} {tokens : List Token} {place : Nat} {ahead : List Char} {kind : LexErrorKind}

/-- At a place that the lexer comes to it reports just what it finds there. -/
theorem Lexes.reports_iff (lexes : Lexes 0 source.toList tokens place ahead) :
    Reports source kind place ahead ↔
      ∃ text rest, ahead = text ++ rest ∧ (Lexeme.error kind).Leads text rest := by
  constructor
  · rintro ⟨_, text, rest, -, shape, leads, -⟩
    exact ⟨text, rest, shape, leads⟩
  · rintro ⟨text, rest, rfl, leads⟩
    exact ⟨tokens, text, rest, lexes, rfl, leads,
      lex_eq_error.mpr ⟨tokens, place, text, rest, lexes, leads, rfl⟩⟩

theorem invalidCharacter_leads_iff {c : Char} :
    (∃ text rest, ahead = text ++ rest ∧ (Lexeme.error (.invalidCharacter c)).Leads text rest) ↔
      ahead.head? = some c ∧ ¬ Pattern.Begins Pattern.any ahead := by
  constructor
  · rintro ⟨text, rest, rfl, leads⟩
    obtain ⟨rfl, none⟩ := leads.found.not_begins
    exact ⟨rfl, none⟩
  · rintro ⟨first, none⟩
    obtain ⟨rest, rfl⟩ := List.head?_eq_some_iff.mp first
    obtain ⟨lexeme, text, rest', leads, covers⟩ := exists_leads c rest
    rw [← covers] at none
    by_cases invalid : ∃ d, lexeme = .error (.invalidCharacter d)
    · obtain ⟨d, rfl⟩ := invalid
      obtain ⟨rfl, -⟩ := leads.found.not_begins
      obtain ⟨rfl, -⟩ := List.cons.inj covers
      exact ⟨[d], rest', covers.symm, leads⟩
    · exact (none (leads.found.begins fun d same => invalid ⟨d, same⟩)).elim

theorem unterminatedString_leads_iff :
    (∃ text rest, ahead = text ++ rest ∧ (Lexeme.error .unterminatedString).Leads text rest) ↔
      ahead.head? = some '"' ∧ ¬ Pattern.Begins Pattern.closedString ahead := by
  constructor
  · rintro ⟨text, rest, rfl, leads⟩
    have found := leads.found
    generalize isError : Lexeme.error .unterminatedString = lexeme at found
    cases found with
    | number number =>
      subst isError
      obtain ⟨_, ⟨⟩⟩ := number.out_of_range
    | openString string none => exact ⟨rfl, none⟩
    | _ => cases isError
  · rintro ⟨first, none⟩
    obtain ⟨chars, rfl⟩ := List.head?_eq_some_iff.mp first
    obtain ⟨body', string, same⟩ := splitString_body [] chars
    have covers := splitString_append [] chars
    cases split : splitString [] chars with
    | mk body rest =>
      rw [split] at same covers
      obtain rfl : body = body' := same
      obtain rfl : body ++ rest = chars := covers
      refine ⟨'"' :: body, rest, rfl, '"', body, rfl, ?_⟩
      rw [show firstPiece '"' (body ++ rest) = stringPiece (body ++ rest) from rfl, stringPiece, split]
      split
      · rename_i rest' same
        cases same
        have closed := Pattern.mem_closedString.mpr ⟨body, string, rfl⟩
        exact (none ⟨_, closed, rest', by simp⟩).elim
      · rename_i same
        cases same
        rfl

theorem unterminatedComment_leads_iff :
    (∃ text rest, ahead = text ++ rest ∧ (Lexeme.error .unterminatedComment).Leads text rest) ↔
      ∃ inner, ahead = '/' :: '*' :: inner ∧ ¬ ['*', '/'] <:+: inner := by
  constructor
  · rintro ⟨text, rest, rfl, leads⟩
    have found := leads.found
    generalize isError : Lexeme.error .unterminatedComment = lexeme at found
    cases found with
    | number number =>
      subst isError
      obtain ⟨_, ⟨⟩⟩ := number.out_of_range
    | @openComment inner none => exact ⟨inner, List.append_nil _, none⟩
    | _ => cases isError
  · rintro ⟨inner, rfl, none⟩
    refine ⟨'/' :: '*' :: inner, [], (List.append_nil _).symm, '/', '*' :: inner, rfl, ?_⟩
    rw [List.append_nil, show firstPiece '/' ('*' :: inner) = slashPiece ('*' :: inner) from rfl,
      slashPiece, splitComment?_eq_none.mpr none]

theorem invalidEscape_leads_iff :
    (∃ c text rest, ahead = text ++ rest ∧ (Lexeme.error (.invalidEscape c)).Leads text rest) ↔
      ∃ (items : List (List Char)) (rest : List Char), (∀ item ∈ items, item ∈ Pattern.stringItem) ∧
        ahead = '"' :: (items.flatten ++ '"' :: rest) ∧
        ∃ c, ['\\', c] ∈ items ∧ c ∉ ['n', 'r', 't', '\\', '"', '0'] := by
  constructor
  · rintro ⟨c, text, rest, rfl, leads⟩
    have found := leads.found
    generalize isError : Lexeme.error (.invalidEscape c) = lexeme at found
    cases found with
    | number number =>
      subst isError
      obtain ⟨_, ⟨⟩⟩ := number.out_of_range
    | badString string read =>
      obtain ⟨items, rfl, each⟩ := Language.mem_kstar.mp (StringBody.iff_mem.mp string)
      exact ⟨items, rest, each, by simp, (unescape_items each []).mp ⟨_, read⟩⟩
    | _ => cases isError
  · rintro ⟨items, rest, each, rfl, bad⟩
    obtain ⟨c, read⟩ := (unescape_items each []).mpr bad
    have string : StringBody items.flatten := StringBody.iff_mem.mpr (Language.join_mem_kstar each)
    have split : splitString [] (items.flatten ++ '"' :: rest) = (items.flatten, '"' :: rest) :=
      splitString_closed.mpr ⟨string, rfl⟩
    refine ⟨c, '"' :: (items.flatten ++ ['"']), rest, by simp, '"', _, rfl, ?_⟩
    rw [List.append_assoc, List.singleton_append]
    show stringPiece _ = _
    rw [stringPiece, split]
    simp only [read]
    rfl

end Errors

/-- In front of every token is what was read before it, and its text is the longest that any pattern
matches there, the pattern of its kind among them. A keyword comes before an identifier. The errors are
reported at the places where they belong: at a character where no pattern matches, where no closed
string begins with a quote, where nothing closes a comment, and where a closed string has an escape
that means nothing. -/
theorem lexer_takes_longest_match (source : String) :
    (∀ tokens place ahead, Lexes 0 source.toList tokens place ahead → ∀ token ∈ tokens,
      ∃ before text rest, source.toList = before ++ (text ++ rest) ∧
        token.span = Span.ofRange (byteLength before) (byteLength before + byteLength text) ∧
        text ∈ token.kind.pattern ∧ Pattern.Longest Pattern.any text rest ∧
        ∀ k : Keyword, text = k.text.toList → token.kind = .keyword k) ∧
    (∀ tokens, lex source = .ok tokens → ∃ read place, tokens = read ++ [endToken place] ∧
      Lexes 0 source.toList read place []) ∧
    (∀ e, lex source = .error e → ∃ place ahead, Reports source e.kind place ahead) ∧
    ∀ tokens place ahead, Lexes 0 source.toList tokens place ahead →
      (∀ c, Reports source (.invalidCharacter c) place ahead ↔
        ahead.head? = some c ∧ ¬ Pattern.Begins Pattern.any ahead) ∧
      (Reports source .unterminatedString place ahead ↔
        ahead.head? = some '"' ∧ ¬ Pattern.Begins Pattern.closedString ahead) ∧
      (Reports source .unterminatedComment place ahead ↔
        ∃ inner, ahead = '/' :: '*' :: inner ∧ ¬ ['*', '/'] <:+: inner) ∧
      ((∃ c, Reports source (.invalidEscape c) place ahead) ↔
        ∃ (items : List (List Char)) (rest : List Char), (∀ item ∈ items, item ∈ Pattern.stringItem) ∧
          ahead = '"' :: (items.flatten ++ '"' :: rest) ∧
          ∃ c, ['\\', c] ∈ items ∧ c ∉ ['n', 'r', 't', '\\', '"', '0']) := by
  refine ⟨fun tokens place ahead lexes token member => ?_, fun tokens lexed => ?_, fun e failed => ?_,
    fun tokens place ahead lexes => ?_⟩
  · obtain ⟨front, back, rfl⟩ := List.append_of_mem member
    obtain ⟨mid, kind, text, rest, earlier, leads, rfl, -⟩ := lexes.at_token
    obtain ⟨before, covers, reached⟩ := earlier.split
    rw [Nat.zero_add] at reached
    subst reached
    refine ⟨before, text, rest, covers, rfl, leads.found.matched, leads.found.longest, ?_⟩
    rintro k rfl
    exact leads.found.keyword_first
  · obtain ⟨read, stop, lexes, rfl⟩ := lex_eq_ok.mp lexed
    exact ⟨read, stop, rfl, lexes⟩
  · obtain ⟨read, start, text, rest, lexes, leads, -⟩ := lex_eq_error.mp failed
    exact ⟨start, text ++ rest, lexes.reports_iff.mpr ⟨text, rest, rfl, leads⟩⟩
  · refine ⟨fun c => ?_, ?_, ?_, ?_⟩
    · rw [lexes.reports_iff, invalidCharacter_leads_iff]
    · rw [lexes.reports_iff, unterminatedString_leads_iff]
    · rw [lexes.reports_iff, unterminatedComment_leads_iff]
    · simp only [lexes.reports_iff, invalidEscape_leads_iff]

/-- Letters that look like an exponent, a base or a longer mark, and are none. -/
def backedOffSource : String := "0x 1e 0b2 !== /*"

/-- What could go on as a longer token but does not is split, up to a comment that nothing closes. -/
theorem backed_off_source_split : ∃ place ahead,
    Reports backedOffSource .unterminatedComment place ahead ∧
      (∃ inner, ahead = '/' :: '*' :: inner ∧ ¬ ['*', '/'] <:+: inner) ∧
      ∃ tokens, Lexes 0 backedOffSource.toList tokens place ahead ∧ ∀ token ∈ tokens,
        ∃ before text rest, backedOffSource.toList = before ++ (text ++ rest) ∧
          token.span = Span.ofRange (byteLength before) (byteLength before + byteLength text) ∧
          text ∈ token.kind.pattern ∧ Pattern.Longest Pattern.any text rest ∧
          ∀ k : Keyword, text = k.text.toList → token.kind = .keyword k := by
  obtain ⟨longest, -, reported, errors⟩ := lexer_takes_longest_match backedOffSource
  have fails : (match lex backedOffSource with
      | .ok _ => false
      | .error e => e.kind == .unterminatedComment) = true := by decide +kernel
  split at fails
  · cases fails
  · rename_i e failed
    obtain ⟨place, ahead, reports⟩ := reported e failed
    rw [beq_iff_eq.mp fails] at reports
    obtain ⟨tokens, -, -, lexes, -⟩ := id reports
    exact ⟨place, ahead, reports, (errors tokens place ahead lexes).2.2.1.mp reports, tokens, lexes,
      longest tokens place ahead lexes⟩

end Lu
