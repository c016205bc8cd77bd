import Lu.Source.Lines
import Lu.Token.Lexer

namespace Lu

/-!
The lexer puts its tokens and its errors on whole characters of the source.
-/

theorem byteLength_cons (c : Char) (chars : List Char) :
    byteLength (c :: chars) = c.utf8Size + byteLength chars := by
  have shift : ∀ count, chars.foldl (fun count c => count + c.utf8Size) count =
      count + byteLength chars := by
    unfold byteLength
    induction chars with
    | nil => exact fun count => rfl
    | cons d rest ih =>
      intro count
      simp only [List.foldl_cons]
      rw [ih, ih (0 + d.utf8Size)]
      omega
  rw [byteLength, List.foldl_cons, shift, Nat.zero_add]

theorem byteLength_replicate (c : Char) (count : Nat) :
    byteLength (List.replicate count c) = count * c.utf8Size := by
  induction count with
  | zero => simp [byteLength]
  | succ count ih => rw [List.replicate_succ, byteLength_cons, ih, Nat.succ_mul, Nat.add_comm]

theorem byteLength_append (front back : List Char) :
    byteLength (front ++ back) = byteLength front + byteLength back := by
  induction front with
  | nil => simp [byteLength]
  | cons c rest ih =>
    rw [List.cons_append, byteLength_cons, byteLength_cons, ih]
    omega

/-- The offset lies between two characters of the text, or at one of its ends. -/
def Boundary (text : List Char) (offset : Nat) : Prop :=
  ∃ front back, front ++ back = text ∧ byteLength front = offset

theorem Boundary.le {text : List Char} {offset : Nat} (boundary : Boundary text offset) :
    offset ≤ byteLength text := by
  obtain ⟨front, back, rfl, rfl⟩ := boundary
  rw [byteLength_append]
  omega

theorem Boundary.zero (text : List Char) : Boundary text 0 := ⟨[], text, rfl, rfl⟩

/-- The span covers whole characters of the text. -/
structure Span.InText (text : List Char) (span : Span) : Prop where
  ordered : span.start ≤ span.stop
  bounded : span.stop ≤ byteLength text
  start : Boundary text span.start
  stop : Boundary text span.stop

namespace Span.InText

variable {text : List Char}

theorem ofBoundaries {start stop : Nat} (atStart : Boundary text start) (atStop : Boundary text stop)
    (ordered : start ≤ stop) : InText text ⟨start, stop⟩ :=
  ⟨ordered, atStop.le, atStart, atStop⟩

theorem nowhere (text : List Char) : InText text .nowhere :=
  .ofBoundaries (.zero text) (.zero text) (Nat.le_refl 0)

/-- One span reaches from the first character of two others to the last one. -/
theorem merge {first second : Span} (atFirst : first.InText text) (atSecond : second.InText text) :
    (first.merge second).InText text := by
  have ordered := atFirst.ordered
  have start : Boundary text (min first.start second.start) := by
    rcases Nat.le_total first.start second.start with le | le
    · rw [Nat.min_eq_left le]
      exact atFirst.start
    · rw [Nat.min_eq_right le]
      exact atSecond.start
  have stop : Boundary text (max first.stop second.stop) := by
    rcases Nat.le_total first.stop second.stop with le | le
    · rw [Nat.max_eq_right le]
      exact atSecond.stop
    · rw [Nat.max_eq_left le]
      exact atFirst.stop
  exact .ofBoundaries start stop (by omega)

end Span.InText

/-- All tokens, or the error, are on whole characters of the text. -/
def LexedIn (text : List Char) : Except LexError (Array Token) → Prop
  | .ok tokens => ∀ token ∈ tokens, token.span.InText text
  | .error e => e.span.InText text

theorem Span.ofRange_inText {text : List Char} (short : byteLength text ≤ lastOffset)
    {start stop : Nat} (atStart : Boundary text start) (atStop : Boundary text stop)
    (ordered : start ≤ stop) : (ofRange start stop).InText text := by
  have startFits := atStart.le
  have stopFits := atStop.le
  rw [ofRange_eq (by omega) (by omega)]
  exact .ofBoundaries atStart atStop ordered

/-- What a piece covers ends where the next one starts. -/
theorem Piece.Splits.boundary {text before chars : List Char} {piece : Piece}
    (splits : piece.Splits chars) (split : before ++ chars = text) :
    (before ++ piece.text) ++ piece.rest = text ∧
      Boundary text (byteLength before + byteLength piece.text) := by
  have whole : (before ++ piece.text) ++ piece.rest = text := by
    rw [List.append_assoc, splits.2, split]
  exact ⟨whole, _, _, whole, byteLength_append _ _⟩

theorem lexFrom_inText {text : List Char} (short : byteLength text ≤ Span.lastOffset) {offset : Nat}
    {tokens : Array Token} {chars : List Char} (before : List Char) (split : before ++ chars = text)
    (reached : byteLength before = offset) (placed : ∀ token ∈ tokens, token.span.InText text) :
    LexedIn text (lexFrom offset tokens chars) := by
  have push {token : Token} {tokens : Array Token}
      (placed : ∀ token ∈ tokens, token.span.InText text) (added : token.span.InText text) :
      ∀ other ∈ tokens.push token, other.span.InText text := by
    intro other member
    rcases Array.mem_push.mp member with member | rfl
    · exact placed other member
    · exact added
  have here : Boundary text offset := ⟨before, chars, split, reached⟩
  fun_induction lexFrom offset tokens chars generalizing before with
  | case1 offset tokens =>
    exact push placed (Span.ofRange_inText short here here (Nat.le_refl _))
  | case2 offset tokens first more piece next gap ih =>
    obtain ⟨whole, boundary⟩ := (firstPiece_splits first more).boundary split
    rw [reached] at boundary
    exact ih (before ++ piece.text) whole (by rw [byteLength_append, reached]) placed boundary
  | case3 offset tokens first more piece next span kind found ih =>
    obtain ⟨whole, boundary⟩ := (firstPiece_splits first more).boundary split
    rw [reached] at boundary
    have covered := Span.ofRange_inText short here boundary (Nat.le_add_right _ _)
    exact ih (before ++ piece.text) whole (by rw [byteLength_append, reached])
      (push placed covered) boundary
  | case4 offset tokens first more piece next span kind found =>
    obtain ⟨-, boundary⟩ := (firstPiece_splits first more).boundary split
    rw [reached] at boundary
    exact Span.ofRange_inText short here boundary (Nat.le_add_right _ _)

/-- The tokens of a source text that is not too long are on whole characters of it, and so is the piece
that is no token. -/
theorem lex_inText {source : String} (short : byteLength source.toList ≤ Span.lastOffset) :
    (∀ tokens, lex source = .ok tokens → ∀ token ∈ tokens, token.span.InText source.toList) ∧
      ∀ e, lex source = .error e → e.span.InText source.toList := by
  have lexed : LexedIn source.toList (lexFrom 0 #[] source.toList) :=
    lexFrom_inText short [] rfl rfl (by simp)
  unfold lex
  cases ran : lexFrom 0 #[] source.toList with
  | ok result =>
    rw [ran] at lexed
    refine ⟨fun tokens same token member => ?_, nofun⟩
    cases same
    exact lexed token (Array.mem_toList_iff.mp member)
  | error e =>
    rw [ran] at lexed
    refine ⟨nofun, fun e same => ?_⟩
    cases same
    exact lexed

end Lu
