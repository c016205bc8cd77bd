import Lu.Proofs.Token.Lexing
import Lu.Proofs.Token.Scanning

namespace Lu

/-!
What the lexer finds in front of a text, by the pattern that matches there and what may not follow.
-/

/-- The lexeme is what a text is that comes first, with the rest behind it. -/
inductive Found : Lexeme → List Char → List Char → Prop
  | spaces {text rest} : text ∈ Pattern.spaces → (∀ c ∈ rest.head?, isSpace c = false) →
      Found .gap text rest
  | lineComment {text rest} : text ∈ Pattern.lineComment → (∀ c ∈ rest.head?, c = '\n') →
      Found .gap text rest
  | blockComment {inner rest} : ¬ ['*', '/'] <:+: inner ++ ['*'] →
      Found .gap ('/' :: '*' :: (inner ++ ['*', '/'])) rest
  | openComment {inner} : ¬ ['*', '/'] <:+: inner →
      Found (.error .unterminatedComment) ('/' :: '*' :: inner) []
  | number {lexeme text rest} : Number ⟨lexeme, text, rest⟩ → Found lexeme text rest
  | keyword {k rest} : (∀ c ∈ rest.head?, isIdentPart c = false) →
      Found (.token (.keyword k)) k.text.toList rest
  | identifier {name rest} : IsName name → (∀ c ∈ rest.head?, isIdentPart c = false) →
      Found (.token (.ident name)) name.toList rest
  | string {body decoded rest} : StringBody body → unescape [] body = .ok decoded →
      Found (.token (.str (String.ofList decoded))) ('"' :: body ++ ['"']) rest
  | badString {body c rest} : StringBody body → unescape [] body = .error c →
      Found (.error (.invalidEscape c)) ('"' :: body ++ ['"']) rest
  | openString {body rest} : StringBody body →
      ¬ Pattern.Begins Pattern.closedString ('"' :: body ++ rest) →
      Found (.error .unterminatedString) ('"' :: body) rest
  | single {first m rest} : simpleMark? first = some m →
      (∀ c ∈ rest.head?, doubleMark? first c = none) →
      (first = '/' → ∀ c ∈ rest.head?, c ≠ '/' ∧ c ≠ '*') → Found (.token (.mark m)) [first] rest
  | double {first second m rest} : doubleMark? first second = some m →
      Found (.token (.mark m)) [first, second] rest
  | invalid {first rest} : BeginsMark first → simpleMark? first = none →
      (∀ c ∈ rest.head?, doubleMark? first c = none) →
      Found (.error (.invalidCharacter first)) [first] rest

section Finding

variable {first second : Char} {m : Mark}

theorem simpleMark?_spelled (single : simpleMark? first = some m) :
    m.text.toList = [first] ∧ BeginsMark first := by
  unfold simpleMark? at single
  split at single <;> cases single <;> decide

theorem doubleMark?_spelled (double : doubleMark? first second = some m) :
    m.text.toList = [first, second] ∧ BeginsMark first := by
  unfold doubleMark? at double
  split at double <;> cases double <;> decide

/-- What is found in front of a text is the piece that the lexer takes. -/
def Piece.Comes (piece : Piece) : Prop := Found piece.lexeme piece.text piece.rest

theorem Keyword.text_of_ofText? {text : String} {k : Keyword} (found : Keyword.ofText? text = some k) :
    k.text = text := by
  have same := List.find?_some found
  simpa using same

theorem isIdentPart_of_start (start : isIdentStart first = true) : isIdentPart first = true := by
  simp only [isIdentStart, Bool.or_eq_true] at start
  simp only [isIdentPart, Char.isAlphanum, Bool.or_eq_true]
  tauto

theorem wordPiece_comes (start : isIdentStart first = true) (chars : List Char) :
    (wordPiece first chars).Comes := by
  have parts : ∀ c ∈ chars.takeWhile isIdentPart, isIdentPart c = true := fun c =>
    List.mem_takeWhile_imp
  have stops := head?_dropWhile isIdentPart chars
  unfold wordPiece Piece.Comes
  simp only
  generalize chars.takeWhile isIdentPart = more at parts
  have spelled : (String.ofList (first :: more)).toList = first :: more := String.toList_ofList
  cases found : Keyword.ofText? (String.ofList (first :: more)) with
  | some k =>
    rw [← spelled, ← Keyword.text_of_ofText? found]
    exact .keyword stops
  | none =>
    have startPart := isIdentPart_of_start start
    have name : IsName (String.ofList (first :: more)) := by
      refine ⟨?_, ?_, found⟩
      · rw [spelled]
        exact start
      · rw [spelled, List.all_eq_true]
        exact List.forall_mem_cons.mpr ⟨startPart, parts⟩
    have identifier := Found.identifier name stops
    rwa [spelled] at identifier

theorem stringPiece_comes (chars : List Char) : (stringPiece chars).Comes := by
  obtain ⟨body', string, same⟩ := splitString_body [] chars
  have covers := splitString_append [] chars
  unfold stringPiece
  split
  · rename_i body rest found
    rw [found] at same
    obtain rfl : body = body' := same
    simp only
    split
    · rename_i decoded read
      exact .string string read
    · rename_i c read
      exact .badString string read
  · rename_i body rest notQuote found
    rw [found] at same covers
    obtain rfl : body = body' := same
    refine .openString string ?_
    rintro ⟨_, closed, back, same⟩
    obtain ⟨other, string, rfl⟩ := Pattern.mem_closedString.mp closed
    have ends : chars = other ++ '"' :: back := by
      rw [← show body ++ rest = chars from covers]
      simpa using same.symm
    have closes := splitString_closed.mpr ⟨string, ends⟩
    rw [found] at closes
    cases closes
    exact notQuote back rfl

theorem markPiece_comes (begins : BeginsMark first) {chars : List Char}
    (slash : first = '/' → ∀ c ∈ chars.head?, c ≠ '/' ∧ c ≠ '*') : (markPiece first chars).Comes := by
  have simple (alone : ∀ c ∈ chars.head?, doubleMark? first c = none) :
      (simplePiece first chars).Comes := by
    unfold simplePiece
    split
    · rename_i m single
      exact .single single alone slash
    · rename_i none
      exact .invalid begins none alone
  unfold markPiece
  split
  · rename_i second rest
    split
    · rename_i m double
      exact .double double
    · rename_i none
      exact simple (forall_head none)
  · exact simple nofun

theorem slashPiece_comes (chars : List Char) : (slashPiece chars).Comes := by
  unfold slashPiece
  split
  · rename_i rest
    have body : ∀ c ∈ rest.takeWhile (· ≠ '\n'), c ≠ '\n' := fun c member => by
      simpa using List.mem_takeWhile_imp member
    have stops := head?_dropWhile (· ≠ '\n') rest
    refine .lineComment (Pattern.mem_lineComment.mpr ⟨_, body, rfl⟩) fun c first => ?_
    simpa using stops c first
  · rename_i rest
    split
    · rename_i found
      obtain ⟨inner, rfl, -, none⟩ := splitComment?_eq_some.mp found
      exact .blockComment none
    · rename_i none
      exact .openComment (splitComment?_eq_none.mp none)
  · rename_i notLine notBlock
    refine markPiece_comes (by decide) fun _ c first => ?_
    obtain ⟨rest, rfl⟩ : ∃ rest, chars = c :: rest := by
      cases chars with
      | nil => cases first
      | cons d rest =>
        cases first
        exact ⟨rest, rfl⟩
    exact ⟨fun same => notLine rest (same ▸ rfl), fun same => notBlock rest (same ▸ rfl)⟩

theorem firstPiece_comes (first : Char) (chars : List Char) : (firstPiece first chars).Comes := by
  unfold firstPiece
  split
  · rename_i space
    have spaces : ∀ c ∈ chars.takeWhile isSpace, isSpace c = true := fun c => List.mem_takeWhile_imp
    exact .spaces (Pattern.mem_spaces.mpr ⟨first, _, space, spaces, rfl⟩) (head?_dropWhile _ _)
  split
  · rename_i digit
    exact .number (numberPiece_number digit chars)
  split
  · rename_i start
    exact wordPiece_comes start chars
  split
  · exact stringPiece_comes chars
  split
  · exact slashPiece_comes chars
  · rename_i space digit start quote slash
    exact markPiece_comes ⟨by simpa using space, by simpa using digit, by simpa using start, quote⟩
      fun same => (slash same).elim

end Finding

/-- What the lexer finds fits there. -/
theorem Lexeme.Leads.found {lexeme : Lexeme} {text rest : List Char} (leads : lexeme.Leads text rest) :
    Found lexeme text rest := by
  obtain ⟨first, more, rfl, piece⟩ := leads
  have comes := firstPiece_comes first (more ++ rest)
  rw [piece] at comes
  exact comes

theorem Number.leads {lexeme : Lexeme} {text rest : List Char}
    (number : Number ⟨lexeme, text, rest⟩) : lexeme.Leads text rest := by
  obtain ⟨d, ds, digit, rfl⟩ := number.digit
  refine ⟨d, ds, rfl, ?_⟩
  rw [firstPiece, not_space_of_digit digit, digit]
  exact number.numberPiece rfl

/-- What fits is what the lexer finds. -/
theorem Found.leads {lexeme : Lexeme} {text rest : List Char} (found : Found lexeme text rest)
    (sound : ∀ kind, lexeme ≠ .error kind) : lexeme.Leads text rest := by
  have slash (chars : List Char) : firstPiece '/' chars = slashPiece chars := rfl
  have quote (chars : List Char) : firstPiece '"' chars = stringPiece chars := rfl
  cases found with
  | spaces text stops =>
    obtain ⟨c, cs, space, spaces, rfl⟩ := Pattern.mem_spaces.mp text
    obtain ⟨taken, dropped⟩ := takeWhile_before spaces stops
    refine ⟨c, cs, rfl, ?_⟩
    rw [firstPiece, if_pos space, taken, dropped]
  | lineComment text stops =>
    obtain ⟨body, line, rfl⟩ := Pattern.mem_lineComment.mp text
    have all : ∀ c ∈ body, decide (c ≠ '\n') = true := by simpa using line
    have ends : ∀ c ∈ rest.head?, decide (c ≠ '\n') = false := by simpa using stops
    obtain ⟨taken, dropped⟩ := takeWhile_before all ends
    refine ⟨'/', '/' :: body, rfl, ?_⟩
    rw [slash, List.cons_append, slashPiece, taken, dropped]
  | @blockComment inner _ none =>
    have split : splitComment? [] (inner ++ ['*', '/'] ++ rest) = some (inner ++ ['*', '/'], rest) :=
      splitComment?_eq_some.mpr ⟨inner, rfl, by simp, none⟩
    refine ⟨'/', '*' :: (inner ++ ['*', '/']), rfl, ?_⟩
    rw [slash, List.cons_append, slashPiece, split]
  | openComment => exact (sound _ rfl).elim
  | number number => exact number.leads
  | @keyword k _ stops =>
    obtain ⟨word, all⟩ := Keyword.spelling_word k
    obtain ⟨first, more, shape, piece⟩ := firstPiece_word word all stops
    rw [Keyword.ofText?_text] at piece
    exact ⟨first, more, shape, piece⟩
  | identifier name stops =>
    obtain ⟨word, all, notKeyword⟩ := name
    obtain ⟨first, more, shape, piece⟩ := firstPiece_word word all stops
    rw [notKeyword] at piece
    exact ⟨first, more, shape, piece⟩
  | @string body decoded _ string read =>
    have split : splitString [] (body ++ ['"'] ++ rest) = (body, '"' :: rest) :=
      splitString_closed.mpr ⟨string, by simp⟩
    refine ⟨'"', body ++ ['"'], rfl, ?_⟩
    rw [quote, stringPiece, split]
    simp only [read]
  | badString => exact (sound _ rfl).elim
  | openString => exact (sound _ rfl).elim
  | @single first m _ single alone notComment =>
    have piece : markPiece first rest = ⟨.token (.mark m), [first], rest⟩ := markPiece_alone single alone
    refine ⟨first, [], rfl, ?_⟩
    rw [List.nil_append, firstPiece_of_beginsMark (simpleMark?_spelled single).2]
    split
    · rename_i isSlash
      subst isSlash
      rw [slashPiece_alone (notComment rfl), piece]
    · exact piece
  | @double first second m _ double =>
    have begins := (doubleMark?_spelled double).2
    refine ⟨first, [second], rfl, ?_⟩
    rw [List.singleton_append, firstPiece_of_beginsMark begins, if_neg, markPiece, double]
    rintro rfl
    simp [doubleMark?] at double
  | invalid => exact (sound _ rfl).elim

end Lu
