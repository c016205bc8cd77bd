import Mathlib.Computability.Language
import Lu.Proofs.Print.Spelling

open scoped Computability

namespace Lu

/-!
The patterns of the tokens as languages, apart from the scanners that look for them.
-/

namespace Pattern

/-- The texts of one character of a class. -/
def one (p : Char → Bool) : Language Char := {text | ∃ c, p c = true ∧ text = [c]}

def exactly (text : List Char) : Language Char := {text}

/-- The text begins with one that the pattern matches. -/
def Begins (pattern : Language Char) (chars : List Char) : Prop := ∃ front ∈ pattern, front <+: chars

def within (first last c : Char) : Bool := first ≤ c && c ≤ last

def digit : Char → Bool := within '0' '9'

def hexDigit (c : Char) : Bool := digit c || within 'a' 'f' c || within 'A' 'F' c

def binDigit : Char → Bool := within '0' '1'

def letter (c : Char) : Bool := within 'a' 'z' c || within 'A' 'Z' c || c == '_'

def hexInt : Language Char :=
  exactly ['0', 'x'] * one hexDigit * (one fun c => hexDigit c || c == '_')∗

def binInt : Language Char :=
  exactly ['0', 'b'] * one binDigit * (one fun c => binDigit c || c == '_')∗

/-- A decimal integer, and the digits of a float before and after the point. -/
def digits : Language Char := one digit * (one fun c => digit c || c == '_')∗

def exponent : Language Char :=
  one (fun c => c == 'e' || c == 'E') * (1 + one fun c => c == '+' || c == '-') *
    (one digit * (one digit)∗)

def pointFloat : Language Char := digits * exactly ['.'] * digits * (1 + exponent)

def powerFloat : Language Char := digits * exponent

def number : Language Char := hexInt + binInt + (digits + (pointFloat + powerFloat))

/-- A character that needs no escape, or a backslash with any character behind it but a line end. -/
def stringItem : Language Char :=
  one (fun c => c != '"' && c != '\\' && c != '\n' && c != '\r') +
    exactly ['\\'] * one fun c => c != '\n'

def closedString : Language Char := exactly ['"'] * stringItem∗ * exactly ['"']

def openString : Language Char := exactly ['"'] * stringItem∗

def identifier : Language Char := one letter * (one fun c => letter c || digit c)∗

def spaces : Language Char :=
  one (fun c => c == ' ' || c == '\t' || c == '\r' || c == '\n') *
    (one fun c => c == ' ' || c == '\t' || c == '\r' || c == '\n')∗

def lineComment : Language Char := exactly ['/', '/'] * (one fun c => c != '\n')∗

/-- The mark that opens a block comment; where the comment ends is looked for apart. -/
def openComment : Language Char := exactly ['/', '*']

end Pattern

/-- What the tokens of a kind look like. The end of file is no text. -/
def TokenKind.pattern : TokenKind → Language Char
  | .int _ => Pattern.hexInt + Pattern.binInt + Pattern.digits
  | .float _ => Pattern.pointFloat + Pattern.powerFloat
  | .str _ => Pattern.closedString
  | .ident _ => Pattern.identifier
  | .keyword k => Pattern.exactly k.text.toList
  | .mark m => Pattern.exactly m.text.toList
  | .eof => 0

namespace Pattern

/-- The texts that some token pattern matches. -/
def token : Language Char := {text | ∃ kind : TokenKind, text ∈ kind.pattern}

/-- White space and line comments. A block comment is looked for where a mark opens it. -/
def skipped : Language Char := spaces + lineComment

/-- All patterns the lexer tells apart, those of texts that are no tokens included. -/
def any : Language Char := token + openString + openComment + skipped

/-- No other text that the pattern matches at this place is longer. -/
def Longest (pattern : Language Char) (text rest : List Char) : Prop :=
  ∀ front ∈ pattern, front <+: text ++ rest → front.length ≤ text.length

variable {text more : List Char} {p : Char → Bool} {language : Language Char}

theorem mem_one : text ∈ one p ↔ ∃ c, p c = true ∧ text = [c] := Iff.rfl

theorem mem_exactly_mul {front : List Char} :
    text ∈ exactly front * language ↔ ∃ back ∈ language, text = front ++ back := by
  rw [Language.mem_mul]
  constructor
  · rintro ⟨_, rfl, back, member, rfl⟩
    exact ⟨back, member, rfl⟩
  · rintro ⟨back, member, rfl⟩
    exact ⟨front, rfl, back, member, rfl⟩

theorem mem_one_mul :
    text ∈ one p * language ↔ ∃ c, p c = true ∧ ∃ back ∈ language, text = c :: back := by
  rw [Language.mem_mul]
  constructor
  · rintro ⟨_, ⟨c, holds, rfl⟩, back, member, rfl⟩
    exact ⟨c, holds, back, member, rfl⟩
  · rintro ⟨c, holds, back, member, rfl⟩
    exact ⟨[c], ⟨c, holds, rfl⟩, back, member, rfl⟩

theorem mem_one_star : text ∈ (one p)∗ ↔ ∀ c ∈ text, p c = true := by
  rw [Language.mem_kstar]
  constructor
  · rintro ⟨parts, rfl, each⟩ c member
    obtain ⟨part, inParts, member⟩ := List.mem_flatten.mp member
    obtain ⟨d, holds, rfl⟩ := each part inParts
    obtain rfl := List.mem_singleton.mp member
    exact holds
  · intro all
    refine ⟨text.map fun c => [c], by simp [← List.flatMap_def], fun part member => ?_⟩
    obtain ⟨c, inText, rfl⟩ := List.mem_map.mp member
    exact ⟨c, all c inText, rfl⟩

section Classes

variable {c : Char}

theorem digit_eq : digit c = c.isDigit := rfl

theorem digitPart_eq : (digit c || c == '_') = isDigitPart 10 c := by
  rw [isDigitPart_decimal, digit_eq]
  rfl

theorem within_iff {first last : Char} :
    within first last c = true ↔ first.toNat ≤ c.toNat ∧ c.toNat ≤ last.toNat := by
  simp only [within, Bool.and_eq_true, decide_eq_true_eq]
  exact Iff.rfl

theorem digitValue?_isSome {base : Nat} : (digitValue? base c).isSome = true ↔
    (within '0' '9' c = true ∧ c.toNat - 48 < base) ∨
    (within 'a' 'f' c = true ∧ c.toNat - 87 < base) ∨
    (within 'A' 'F' c = true ∧ c.toNat - 55 < base) := by
  have zero : '0'.toNat = 48 := rfl
  have nine : '9'.toNat = 57 := rfl
  have a : 'a'.toNat = 97 := rfl
  have f : 'f'.toNat = 102 := rfl
  have A : 'A'.toNat = 65 := rfl
  have F : 'F'.toNat = 70 := rfl
  have le (x y : Char) : x ≤ y ↔ x.toNat ≤ y.toNat := Iff.rfl
  simp only [within_iff, digitValue?, le]
  split
  · simp; omega
  split
  · simp; omega
  split
  · simp; omega
  · simp; omega

theorem hexDigit_eq : hexDigit c = (digitValue? 16 c).isSome := by
  have zero : '0'.toNat = 48 := rfl
  have nine : '9'.toNat = 57 := rfl
  have a : 'a'.toNat = 97 := rfl
  have f : 'f'.toNat = 102 := rfl
  have A : 'A'.toNat = 65 := rfl
  have F : 'F'.toNat = 70 := rfl
  rw [Bool.eq_iff_iff, digitValue?_isSome]
  simp only [hexDigit, digit, Bool.or_eq_true, within_iff]
  omega

theorem binDigit_eq : binDigit c = (digitValue? 2 c).isSome := by
  have zero : '0'.toNat = 48 := rfl
  have nine : '9'.toNat = 57 := rfl
  have one : '1'.toNat = 49 := rfl
  have a : 'a'.toNat = 97 := rfl
  have f : 'f'.toNat = 102 := rfl
  have A : 'A'.toNat = 65 := rfl
  have F : 'F'.toNat = 70 := rfl
  rw [Bool.eq_iff_iff, digitValue?_isSome]
  simp only [binDigit, within_iff]
  omega

theorem letter_eq : letter c = isIdentStart c := by
  have alpha : c.isAlpha = (c.isUpper || c.isLower) := rfl
  have lower : c.isLower = within 'a' 'z' c := rfl
  have upper : c.isUpper = within 'A' 'Z' c := by
    rw [Bool.eq_iff_iff, within_iff]
    exact decide_eq_true_iff
  rw [letter, isIdentStart, alpha, upper, lower, Bool.or_comm (within 'a' 'z' c)]
  rfl

theorem identPart_eq : (letter c || digit c) = isIdentPart c := by
  have : isIdentPart c = ((c.isAlpha || c.isDigit) || (c = '_' : Bool)) := rfl
  rw [letter_eq, digit_eq, this, isIdentStart, Bool.or_right_comm]

end Classes

section Numbers

theorem mem_digits : text ∈ digits ↔
    ∃ d ds, d.isDigit = true ∧ (∀ c ∈ ds, isDigitPart 10 c = true) ∧ text = d :: ds := by
  simp only [digits, mem_one_mul, mem_one_star, digitPart_eq]
  constructor
  · rintro ⟨d, isDigit, ds, parts, rfl⟩
    exact ⟨d, ds, isDigit, parts, rfl⟩
  · rintro ⟨d, ds, isDigit, parts, rfl⟩
    exact ⟨d, isDigit, ds, parts, rfl⟩

/-- Behind a zero come the letter of the base, a digit of it, and more of them or underscores. -/
theorem mem_based : text ∈ hexInt + binInt ↔ ∃ letter base d ds, announcedBase? letter = some base ∧
    (digitValue? base d).isSome = true ∧ (∀ c ∈ ds, isDigitPart base c = true) ∧
    text = '0' :: letter :: d :: ds := by
  rw [Language.mem_add]
  simp only [hexInt, binInt, mul_assoc, mem_exactly_mul, mem_one_mul, mem_one_star, hexDigit_eq,
    binDigit_eq]
  constructor
  · rintro (⟨_, ⟨d, isDigit, ds, parts, rfl⟩, rfl⟩ | ⟨_, ⟨d, isDigit, ds, parts, rfl⟩, rfl⟩)
    · exact ⟨'x', 16, d, ds, rfl, isDigit, parts, rfl⟩
    · exact ⟨'b', 2, d, ds, rfl, isDigit, parts, rfl⟩
  · rintro ⟨letter, base, d, ds, announced, isDigit, parts, rfl⟩
    unfold announcedBase? at announced
    split at announced <;> cases announced
    · exact .inl ⟨d :: ds, ⟨d, isDigit, ds, parts, rfl⟩, rfl⟩
    · exact .inr ⟨d :: ds, ⟨d, isDigit, ds, parts, rfl⟩, rfl⟩

theorem mem_exponent : text ∈ exponent ↔ ∃ e sign d ds, (e = 'e' ∨ e = 'E') ∧
    (sign = [] ∨ sign = ['+'] ∨ sign = ['-']) ∧ (∀ c ∈ d :: ds, c.isDigit = true) ∧
    text = e :: (sign ++ d :: ds) := by
  have signs : ∀ sign, sign ∈ 1 + (one fun c => c == '+' || c == '-') ↔
      sign = [] ∨ sign = ['+'] ∨ sign = ['-'] := by
    intro sign
    rw [Language.mem_add, Language.mem_one, mem_one]
    refine or_congr_right ⟨?_, ?_⟩
    · rintro ⟨c, isSign, rfl⟩
      simpa using isSign
    · rintro (rfl | rfl)
      · exact ⟨'+', rfl, rfl⟩
      · exact ⟨'-', rfl, rfl⟩
  simp only [exponent, mul_assoc, mem_one_mul, Bool.or_eq_true, beq_iff_eq]
  constructor
  · rintro ⟨e, isE, _, back, rfl⟩
    obtain ⟨sign, isSign, _, power, rfl⟩ := Language.mem_mul.mp back
    obtain ⟨d, isDigit, ds, all, rfl⟩ := mem_one_mul.mp power
    exact ⟨e, sign, d, ds, isE, (signs sign).mp isSign,
      List.forall_mem_cons.mpr ⟨isDigit, mem_one_star.mp all⟩, rfl⟩
  · rintro ⟨e, sign, d, ds, isE, isSign, all, rfl⟩
    obtain ⟨isDigit, all⟩ := List.forall_mem_cons.mp all
    exact ⟨e, isE, sign ++ d :: ds, Language.append_mem_mul ((signs sign).mpr isSign)
      (mem_one_mul.mpr ⟨d, isDigit, ds, mem_one_star.mpr all, rfl⟩), rfl⟩

/-- A decimal number is digits, with a fraction, an exponent or both behind them if it is a float. -/
theorem mem_float : text ∈ pointFloat + powerFloat ↔ ∃ whole ∈ digits,
    (∃ fraction ∈ digits, ∃ power, (power = [] ∨ power ∈ exponent) ∧
      text = whole ++ '.' :: (fraction ++ power)) ∨
    ∃ power ∈ exponent, text = whole ++ power := by
  rw [Language.mem_add]
  simp only [pointFloat, powerFloat, mul_assoc]
  constructor
  · rintro (point | powered)
    · obtain ⟨whole, isWhole, _, back, rfl⟩ := Language.mem_mul.mp point
      obtain ⟨_, after, rfl⟩ := mem_exactly_mul.mp back
      obtain ⟨fraction, isFraction, power, isPower, rfl⟩ := Language.mem_mul.mp after
      exact ⟨whole, isWhole, .inl ⟨fraction, isFraction, power, isPower, rfl⟩⟩
    · obtain ⟨whole, isWhole, power, isPower, rfl⟩ := Language.mem_mul.mp powered
      exact ⟨whole, isWhole, .inr ⟨power, isPower, rfl⟩⟩
  · rintro ⟨whole, isWhole, ⟨fraction, isFraction, power, isPower, rfl⟩ | ⟨power, isPower, rfl⟩⟩
    · exact .inl (Language.append_mem_mul isWhole (mem_exactly_mul.mpr ⟨fraction ++ power,
        Language.append_mem_mul isFraction isPower, rfl⟩))
    · exact .inr (Language.append_mem_mul isWhole isPower)

end Numbers

section Words

theorem mem_identifier : text ∈ identifier ↔
    ∃ c cs, isIdentStart c = true ∧ (∀ d ∈ cs, isIdentPart d = true) ∧ text = c :: cs := by
  simp only [identifier, mem_one_mul, mem_one_star, identPart_eq]
  constructor
  · rintro ⟨c, start, cs, parts, rfl⟩
    exact ⟨c, cs, letter_eq ▸ start, parts, rfl⟩
  · rintro ⟨c, cs, start, parts, rfl⟩
    exact ⟨c, letter_eq ▸ start, cs, parts, rfl⟩

theorem mem_spaces : text ∈ spaces ↔
    ∃ c cs, isSpace c = true ∧ (∀ d ∈ cs, isSpace d = true) ∧ text = c :: cs := by
  rw [spaces, mem_one_mul]
  constructor
  · rintro ⟨c, space, cs, spaces, rfl⟩
    exact ⟨c, cs, space, mem_one_star.mp spaces, rfl⟩
  · rintro ⟨c, cs, space, spaces, rfl⟩
    exact ⟨c, space, cs, mem_one_star.mpr spaces, rfl⟩

theorem mem_lineComment :
    text ∈ lineComment ↔ ∃ body, (∀ c ∈ body, c ≠ '\n') ∧ text = '/' :: '/' :: body := by
  simp only [lineComment, mem_exactly_mul, mem_one_star, bne_iff_ne]
  rfl

end Words

end Pattern

/-- What can stand between the quotes of a string: characters that need no escape, and a backslash
with any character behind it that does not end the line. -/
inductive StringBody : List Char → Prop
  | nil : StringBody []
  | plain {c rest} : c ≠ '"' → c ≠ '\\' → c ≠ '\n' → c ≠ '\r' → StringBody rest →
      StringBody (c :: rest)
  | escape {c rest} : c ≠ '\n' → StringBody rest → StringBody ('\\' :: c :: rest)

namespace StringBody

theorem append {body more : List Char} (string : StringBody body) (later : StringBody more) :
    StringBody (body ++ more) := by
  induction string with
  | nil => exact later
  | plain quote backslash newline carriage _ ih => exact .plain quote backslash newline carriage ih
  | escape newline _ ih => exact .escape newline ih

theorem iff_mem {body : List Char} : StringBody body ↔ body ∈ Pattern.stringItem∗ := by
  have item : ∀ text, text ∈ Pattern.stringItem → StringBody text := by
    rintro text (⟨c, plain, rfl⟩ | escape)
    · simp only [Bool.and_eq_true, bne_iff_ne] at plain
      obtain ⟨⟨⟨quote, backslash⟩, newline⟩, carriage⟩ := plain
      exact .plain quote backslash newline carriage .nil
    · obtain ⟨_, ⟨c, newline, rfl⟩, rfl⟩ := Pattern.mem_exactly_mul.mp escape
      exact .escape (by simpa using newline) .nil
  have push {first rest : List Char} (isItem : first ∈ Pattern.stringItem)
      (items : rest ∈ Pattern.stringItem∗) : first ++ rest ∈ Pattern.stringItem∗ := by
    obtain ⟨parts, rfl, each⟩ := Language.mem_kstar.mp items
    exact Language.mem_kstar.mpr ⟨first :: parts, rfl, List.forall_mem_cons.mpr ⟨isItem, each⟩⟩
  constructor
  · intro string
    induction string with
    | nil => exact Language.nil_mem_kstar _
    | @plain c rest quote backslash newline carriage _ ih =>
      have isItem : [c] ∈ Pattern.stringItem := .inl ⟨c, by simp [*], rfl⟩
      exact push isItem ih
    | @escape c rest newline _ ih =>
      have isItem : ['\\', c] ∈ Pattern.stringItem :=
        .inr (Pattern.mem_exactly_mul.mpr ⟨[c], ⟨c, by simpa using newline, rfl⟩, rfl⟩)
      exact push isItem ih
  · intro items
    obtain ⟨parts, rfl, each⟩ := Language.mem_kstar.mp items
    induction parts with
    | nil => exact .nil
    | cons first parts ih =>
      obtain ⟨isItem, others⟩ := List.forall_mem_cons.mp each
      exact (item first isItem).append (ih others (Language.join_mem_kstar others))

end StringBody

namespace Pattern

variable {text : List Char}

theorem mem_openString : text ∈ openString ↔ ∃ body, StringBody body ∧ text = '"' :: body := by
  simp only [openString, mem_exactly_mul, ← StringBody.iff_mem]
  rfl

theorem mem_closedString :
    text ∈ closedString ↔ ∃ body, StringBody body ∧ text = '"' :: body ++ ['"'] := by
  rw [closedString, mul_assoc, mem_exactly_mul]
  constructor
  · rintro ⟨_, back, rfl⟩
    obtain ⟨body, items, _, rfl, rfl⟩ := Language.mem_mul.mp back
    exact ⟨body, StringBody.iff_mem.mpr items, rfl⟩
  · rintro ⟨body, string, rfl⟩
    exact ⟨body ++ ['"'], Language.append_mem_mul (StringBody.iff_mem.mp string) rfl, rfl⟩

end Pattern

end Lu
