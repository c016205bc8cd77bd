import Mathlib.Data.List.Basic
import Lu.Proofs.Decimal.Numeral
import Lu.Proofs.Text.Classes
import Lu.Token.Lexer

namespace Lu

/-!
How tokens are spelled, and that the lexer finds a token in its spelling unless what follows runs
into it.
-/

/-- The text is an identifier. -/
def IsName (name : String) : Prop :=
  name.toList.head?.any isIdentStart = true ∧ name.toList.all isIdentPart = true ∧
    Keyword.ofText? name = none

instance (name : String) : Decidable (IsName name) :=
  inferInstanceAs (Decidable (_ ∧ _ ∧ _))

/-- The letter after the backslash for a character that is escaped in a string. -/
def escapeLetter? : Char → Option Char
  | '"' => some '"'
  | '\\' => some '\\'
  | '\n' => some 'n'
  | '\r' => some 'r'
  | '\t' => some 't'
  | '\x00' => some '0'
  | _ => none

def spelledChar (c : Char) : List Char :=
  match escapeLetter? c with
  | some letter => ['\\', letter]
  | none => [c]

namespace TokenKind

/-- The token as it is written. There is no spelling for floats, and the end of file has none. -/
def spelling : TokenKind → List Char
  | .int n => Nat.toDigits 10 n.toInt.toNat
  | .str text => '"' :: text.toList.flatMap spelledChar ++ ['"']
  | .ident name => name.toList
  | .keyword k => k.text.toList
  | .mark m => m.text.toList
  | .float _ | .eof => []

/-- The token has a spelling. A number has none with a sign in front of it: the sign is a token of
its own. -/
def Spellable : TokenKind → Prop
  | .int n => 0 ≤ n
  | .ident name => IsName name
  | .str _ | .keyword _ | .mark _ => True
  | .float _ | .eof => False

/-- Behind the token the character would be read together with it. -/
def runsInto : TokenKind → Char → Bool
  | .int _, c => isIdentPart c || c = '.'
  | .ident _, c | .keyword _, c => isIdentPart c
  | .mark .assign, c | .mark .bang, c | .mark .less, c | .mark .greater, c => c = '='
  | .mark .slash, c => c = '/' || c = '*'
  | _, _ => false

/-- The token ends where the text begins. -/
def EndsBefore (kind : TokenKind) (text : List Char) : Prop :=
  ∀ c ∈ text.head?, kind.runsInto c = false

/-- The token comes first in its spelling with the text behind it. -/
def LeadsIn (kind : TokenKind) (text : List Char) : Prop :=
  ∃ first more, kind.spelling = first :: more ∧
    firstPiece first (more ++ text) = ⟨.token kind, kind.spelling, text⟩

end TokenKind

section Characters

variable {c : Char}

theorem not_space_of_start (start : isIdentStart c = true) : isSpace c = false := by
  cases space : isSpace c with
  | false => rfl
  | true =>
    simp only [isSpace, Bool.or_eq_true, decide_eq_true_eq] at space
    rcases space with ((rfl | rfl) | rfl) | rfl <;> cases start

theorem not_digit_of_start (start : isIdentStart c = true) : c.isDigit = false := by
  have alpha : c.isAlpha = (c.isUpper || c.isLower) := rfl
  have upper : c.isUpper = decide ('A'.val ≤ c.val ∧ c.val ≤ 'Z'.val) := rfl
  have lower : c.isLower = (decide ('a'.val ≤ c.val) && decide (c.val ≤ 'z'.val)) := rfl
  simp only [isIdentStart, alpha, upper, lower, Char.isDigit, ge_iff_le, Bool.or_eq_true,
    Bool.and_eq_true, decide_eq_true_eq, UInt32.le_iff_toNat_le, Bool.and_eq_false_iff,
    decide_eq_false_iff_not] at start ⊢
  have : 'A'.val.toNat = 65 := rfl
  have : 'a'.val.toNat = 97 := rfl
  have : '9'.val.toNat = 57 := rfl
  rcases start with (⟨upper, -⟩ | ⟨lower, -⟩) | rfl
  · omega
  · omega
  · decide

theorem not_space_of_digit (digit : c.isDigit = true) : isSpace c = false := by
  cases space : isSpace c with
  | false => rfl
  | true =>
    simp only [isSpace, Bool.or_eq_true, decide_eq_true_eq] at space
    rcases space with ((rfl | rfl) | rfl) | rfl <;> cases digit

theorem isDigitPart_decimal : isDigitPart 10 c = (c.isDigit || c = '_') := by
  rw [isDigitPart, digitValue?_decimal]
  split <;> simp_all

end Characters

section Pieces

variable {rest : List Char}

theorem firstPiece_word {name : String} (word : name.toList.head?.any isIdentStart = true)
    (all : name.toList.all isIdentPart = true) (stops : ∀ c ∈ rest.head?, isIdentPart c = false) :
    ∃ first more, name.toList = first :: more ∧ firstPiece first (more ++ rest) =
      ⟨.token ((Keyword.ofText? name).elim (.ident name) .keyword), name.toList, rest⟩ := by
  cases shape : name.toList with
  | nil =>
    rw [shape] at word
    cases word
  | cons first more =>
    rw [shape] at word all
    have start : isIdentStart first = true := by simpa using word
    have parts : ∀ c ∈ more, isIdentPart c = true := fun c member =>
      List.all_eq_true.mp all c (List.mem_cons_of_mem _ member)
    obtain ⟨taken, dropped⟩ := takeWhile_before parts stops
    have whole : String.ofList (first :: more) = name := by rw [← shape, String.ofList_toList]
    refine ⟨first, more, rfl, ?_⟩
    simp only [firstPiece, not_space_of_start start, not_digit_of_start start, start, if_true,
      wordPiece, taken, dropped, whole]
    cases Keyword.ofText? name <;> rfl

theorem Keyword.spelling_word (k : Keyword) :
    k.text.toList.head?.any isIdentStart = true ∧ k.text.toList.all isIdentPart = true := by
  cases k <;> decide

theorem doubleMark?_eq_none {first : Char} {m : Mark} (single : simpleMark? first = some m)
    {c : Char} (ends : (TokenKind.mark m).runsInto c = false) : doubleMark? first c = none := by
  unfold doubleMark?
  -- Marks of one character double only in front of `=`, which would run into them.
  split <;> first | rfl | (cases single; try cases ends)

theorem markPiece_alone {first : Char} {m : Mark} {rest : List Char} (single : simpleMark? first = some m)
    (alone : ∀ c ∈ rest.head?, doubleMark? first c = none) :
    markPiece first rest = ⟨.token (.mark m), [first], rest⟩ := by
  cases rest with
  | nil => rw [markPiece, simplePiece, single]
  | cons c rest => rw [markPiece, alone c rfl, simplePiece, single]

theorem markPiece_single {first : Char} {m : Mark} (single : simpleMark? first = some m)
    (ends : (TokenKind.mark m).EndsBefore rest) :
    markPiece first rest = ⟨.token (.mark m), [first], rest⟩ :=
  markPiece_alone single fun c next => doubleMark?_eq_none single (ends c next)

theorem slashPiece_alone {rest : List Char} (alone : ∀ c ∈ rest.head?, c ≠ '/' ∧ c ≠ '*') :
    slashPiece rest = markPiece '/' rest := by
  unfold slashPiece
  split
  · exact absurd rfl (alone _ rfl).1
  · exact absurd rfl (alone _ rfl).2
  · rfl

theorem slashPiece_single (ends : (TokenKind.mark .slash).EndsBefore rest) :
    slashPiece rest = ⟨.token (.mark .slash), ['/'], rest⟩ := by
  have alone : ∀ c ∈ rest.head?, c ≠ '/' ∧ c ≠ '*' := fun c next => by
    constructor
    all_goals
      rintro rfl
      exact absurd (ends _ next) (by decide)
  rw [slashPiece_alone alone, markPiece_single rfl ends]

/-- The character begins neither a gap of white space nor a number, a word or a string. -/
def BeginsMark (c : Char) : Prop :=
  isSpace c = false ∧ c.isDigit = false ∧ isIdentStart c = false ∧ c ≠ '"'

instance (c : Char) : Decidable (BeginsMark c) :=
  inferInstanceAs (Decidable (_ ∧ _ ∧ _ ∧ _))

theorem Mark.text_cases (m : Mark) :
    (∃ first, m.text.toList = [first] ∧ simpleMark? first = some m ∧ BeginsMark first) ∨
      ∃ first second, m.text.toList = [first, second] ∧ doubleMark? first second = some m ∧
        BeginsMark first := by
  cases m with
  | equal | notEqual | lessEqual | greaterEqual | andAnd | orOr =>
    exact .inr ⟨_, _, rfl, by decide, by decide⟩
  | _ => exact .inl ⟨_, rfl, by decide, by decide⟩

theorem firstPiece_of_beginsMark {first : Char} (begins : BeginsMark first) (chars : List Char) :
    firstPiece first chars = if first = '/' then slashPiece chars else markPiece first chars := by
  obtain ⟨space, digit, start, quote⟩ := begins
  simp only [firstPiece, space, digit, start, Bool.false_eq_true, if_false, if_neg quote]

theorem firstPiece_mark (m : Mark) (ends : (TokenKind.mark m).EndsBefore rest) :
    (TokenKind.mark m).LeadsIn rest := by
  rcases m.text_cases with ⟨first, text, single, begins⟩ | ⟨first, second, text, double, begins⟩
  · refine ⟨first, [], text, ?_⟩
    rw [TokenKind.spelling, text, List.nil_append, firstPiece_of_beginsMark begins]
    split
    · rename_i slash
      subst slash
      cases single
      exact slashPiece_single ends
    · exact markPiece_single single ends
  · refine ⟨first, [second], text, ?_⟩
    rw [TokenKind.spelling, text, List.singleton_append, firstPiece_of_beginsMark begins]
    split
    · rename_i slash
      subst slash
      simp [doubleMark?] at double
    · rw [markPiece, double]

theorem withoutUnderscores_digits {digits : List Char} (all : ∀ c ∈ digits, c.isDigit = true) :
    withoutUnderscores digits = digits := by
  refine List.filter_eq_self.mpr fun c member => decide_eq_true ?_
  rintro rfl
  exact absurd (all '_' member) (by decide)

/-- The digits of a number are read as that number. -/
theorem readBased_toDigits {n : Int64} (nonneg : 0 ≤ n) :
    readBased 10 (Nat.toDigits 10 n.toInt.toNat) = .ok n := by
  have least : 0 ≤ n.toInt := Int64.le_iff_toInt_le.mp nonneg
  have numeral := numeral_toDigits n.toInt.toNat
  rw [Int.toNat_of_nonneg least] at numeral
  exact readInt_eq_ok.mpr numeral

/-- No number in another base begins where the first digit of a decimal number is followed by
others or by something else. -/
theorem basedPiece?_eq_none {first : Char} {chars : List Char}
    (decimal : ∀ c ∈ chars.head?, c.isDigit = true ∨ isIdentPart c = false) :
    basedPiece? (first :: chars) = none := by
  unfold basedPiece?
  split
  · rename_i letter digit more shape
    cases shape
    have none : announcedBase? letter = none := by
      unfold announcedBase?
      split
      · rcases decimal _ rfl with digit | other <;> contradiction
      · rcases decimal _ rfl with digit | other <;> contradiction
      · rfl
    rw [none]
    split <;> rfl
  · rfl

theorem TokenKind.int_endsBefore {n : Int64} :
    (TokenKind.int n).EndsBefore rest ↔ ∀ c ∈ rest.head?, isIdentPart c = false ∧ c ≠ '.' := by
  simp [EndsBefore, runsInto]

theorem decimalPiece_of_int {n : Int64} (ends : (TokenKind.int n).EndsBefore rest)
    (whole : List Char) : decimalPiece whole rest = intPiece 10 whole whole rest := by
  rw [TokenKind.int_endsBefore] at ends
  unfold decimalPiece
  split
  · exact absurd rfl (ends _ rfl).2
  · cases rest with
    | nil => rfl
    | cons c rest =>
      have power : ¬ (c = 'e' ∨ c = 'E') := by
        rintro (rfl | rfl) <;> cases (ends _ rfl).1
      rw [splitExponent?, if_neg power]

theorem firstPiece_int {n : Int64} (nonneg : 0 ≤ n) (ends : (TokenKind.int n).EndsBefore rest) :
    (TokenKind.int n).LeadsIn rest := by
  have digits := isDigit_toDigits n.toInt.toNat
  have value : intPiece 10 (Nat.toDigits 10 n.toInt.toNat) (Nat.toDigits 10 n.toInt.toNat) rest =
      ⟨.token (.int n), Nat.toDigits 10 n.toInt.toNat, rest⟩ := by
    rw [intPiece, withoutUnderscores_digits digits, readBased_toDigits nonneg]
  have stops : ∀ c ∈ rest.head?, isIdentPart c = false := fun c member =>
    (TokenKind.int_endsBefore.mp ends c member).1
  cases shape : Nat.toDigits 10 n.toInt.toNat with
  | nil => exact absurd shape Nat.toDigits_ne_nil
  | cons first more =>
    rw [shape] at digits value
    obtain ⟨digit, others⟩ := List.forall_mem_cons.mp digits
    have based : basedPiece? (first :: (more ++ rest)) = none := by
      refine basedPiece?_eq_none fun c member => ?_
      cases more with
      | nil => exact .inr (stops c member)
      | cons second more =>
        cases member
        exact .inl (others _ (List.mem_cons_self ..))
    have digitParts : ∀ c ∈ more, isDigitPart 10 c = true := fun c member => by
      rw [isDigitPart_decimal, others c member, Bool.true_or]
    have after : ∀ c ∈ rest.head?, isDigitPart 10 c = false := fun c member => by
      have := stops c member
      simp_all [isDigitPart_decimal, isIdentPart, Char.isAlphanum]
    obtain ⟨taken, dropped⟩ := takeWhile_before digitParts after
    refine ⟨first, more, shape, ?_⟩
    rw [TokenKind.spelling, shape, firstPiece, not_space_of_digit digit, digit]
    simp only [Bool.false_eq_true, if_false, if_true, numberPiece, based, taken, dropped]
    rw [decimalPiece_of_int ends, value]

/-- What an escape stands for is what it was written for. -/
theorem escaped?_escapeLetter {c letter : Char} (escape : escapeLetter? c = some letter) :
    escaped? letter = some c ∧ letter ≠ '\n' := by
  unfold escapeLetter? at escape
  split at escape <;> cases escape <;> decide

theorem plain_of_escapeLetter {c : Char} (plain : escapeLetter? c = none) :
    c ≠ '"' ∧ c ≠ '\\' ∧ c ≠ '\n' ∧ c ≠ '\r' := by
  refine ⟨?_, ?_, ?_, ?_⟩ <;> rintro rfl <;> cases plain

/-- The string ends at its own closing quote. -/
theorem splitString_spelled (text body : List Char) :
    splitString body (text.flatMap spelledChar ++ '"' :: rest) =
      (body.reverse ++ text.flatMap spelledChar, '"' :: rest) := by
  induction text generalizing body with
  | nil => simp [splitString]
  | cons c text ih =>
    rw [List.flatMap_cons, spelledChar]
    cases escape : escapeLetter? c with
    | some letter =>
      have notEnd := (escaped?_escapeLetter escape).2
      simp only [List.cons_append, List.nil_append, splitString, if_neg notEnd, ih]
      simp
    | none =>
      obtain ⟨quote, backslash, newline, carriage⟩ := plain_of_escapeLetter escape
      simp [splitString, quote, backslash, newline, carriage, ih]

theorem unescape_spelled (text decoded : List Char) :
    unescape decoded (text.flatMap spelledChar) = .ok (decoded.reverse ++ text) := by
  induction text generalizing decoded with
  | nil => simp [unescape]
  | cons c text ih =>
    rw [List.flatMap_cons, spelledChar]
    cases escape : escapeLetter? c with
    | some letter =>
      simp [unescape, (escaped?_escapeLetter escape).1, ih]
    | none =>
      simp [unescape, (plain_of_escapeLetter escape).2.1, ih]

theorem firstPiece_str (text : String) : (TokenKind.str text).LeadsIn rest := by
  refine ⟨'"', text.toList.flatMap spelledChar ++ ['"'], rfl, ?_⟩
  have split := @splitString_spelled rest text.toList []
  have decoded := unescape_spelled text.toList []
  have string : firstPiece '"' = stringPiece := rfl
  rw [string, stringPiece, List.append_assoc, List.singleton_append, split]
  simp only [List.reverse_nil, List.nil_append, decoded, String.ofList_toList]
  rfl

/-- A spelled token comes first unless what follows runs into it. -/
theorem firstPiece_spelling {kind : TokenKind} (spellable : kind.Spellable)
    (ends : kind.EndsBefore rest) : kind.LeadsIn rest := by
  cases kind with
  | int n => exact firstPiece_int spellable ends
  | str text => exact firstPiece_str text
  | ident name =>
    obtain ⟨word, all, notKeyword⟩ := spellable
    obtain ⟨first, more, shape, piece⟩ := firstPiece_word word all ends
    rw [notKeyword] at piece
    exact ⟨first, more, shape, piece⟩
  | keyword k =>
    obtain ⟨word, all⟩ := Keyword.spelling_word k
    obtain ⟨first, more, shape, piece⟩ := firstPiece_word word all ends
    rw [Keyword.ofText?_text] at piece
    exact ⟨first, more, shape, piece⟩
  | mark m => exact firstPiece_mark m ends
  | float | eof => exact spellable.elim

end Pieces

end Lu
