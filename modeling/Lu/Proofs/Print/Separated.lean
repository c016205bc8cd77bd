import Lu.Proofs.Print.Layout
import Lu.Proofs.Token.Tiling

namespace Lu

/-!
Tokens written down with anything between them that is no token: the lexer reads them back.
-/

/-- A part of what stands between tokens: white space, a line comment with the end of its line, or a
block comment, which nothing closes but its end. -/
inductive GapPart where
  | space (c : Char) (isSpace : isSpace c = true)
  | line (body : List Char) (inLine : '\n' ∉ body)
  | block (body : List Char) (unclosed : ¬ ['*', '/'] <:+: body)

def GapPart.text : GapPart → List Char
  | .space c _ => [c]
  | .line body _ => '/' :: '/' :: body ++ ['\n']
  | .block body _ => '/' :: '*' :: (body ++ ['*', '/'])

/-- White space with any parts of a gap behind it, so that no token runs into them. -/
structure Separator where
  first : Char
  isSpace : Lu.isSpace first = true
  parts : List GapPart

def Separator.text (separator : Separator) : List Char :=
  separator.first :: separator.parts.flatMap GapPart.text

/-- Tokens as they are spelled, a separator behind each of them. -/
def separatedText (tokens : List (TokenKind × Separator)) : List Char :=
  tokens.flatMap fun (kind, behind) => kind.spelling ++ behind.text

section Gaps

variable {offset stop : Nat} {chars last after text rest : List Char} {tokens : List Token} {c : Char}

theorem GapPart.gap (part : GapPart) (later : Gap after rest) : Gap after (part.text ++ rest) := by
  cases part with
  | space c isSpace => exact later.spaces fun d single => List.mem_singleton.mp single ▸ isSpace
  | line body inLine =>
    have ends : ∀ c ∈ ('\n' :: rest ++ after).head?, c = '\n' := by simp
    have line := Gap.line (fun c member same => inLine (same ▸ member)) ends (.space (by simp) later)
    simpa [GapPart.text] using line
  | block body unclosed =>
    refine .block (fun early => ?_) later
    -- A closing mark would end in the star behind the body.
    rcases List.infix_concat_iff.mp early with ⟨front, same⟩ | within
    · have ends := congrArg List.getLast? same
      simp at ends
    · exact unclosed within

theorem Separator.gap (separator : Separator) : Gap after separator.text := by
  have parts : Gap after (separator.parts.flatMap GapPart.text) := by
    induction separator.parts with
    | nil => exact .nil
    | cons part parts ih => exact part.gap ih
  exact .spaces parts fun c single => List.mem_singleton.mp single ▸ separator.isSpace

/-- Where white space begins, all of it is found. -/
theorem Lexeme.Leads.spaces {lexeme : Lexeme} (leads : lexeme.Leads text rest)
    (next : c ∈ (text ++ rest).head?) (space : isSpace c = true) :
    lexeme = .gap ∧ (∀ d ∈ text, isSpace d = true) ∧ ∀ d ∈ rest.head?, isSpace d = false := by
  obtain ⟨_, more, rfl, piece⟩ := leads
  cases next
  rw [firstPiece, if_pos space] at piece
  simp only [Piece.mk.injEq, List.cons.injEq, true_and] at piece
  obtain ⟨rfl, taken, dropped⟩ := piece
  refine ⟨rfl, List.forall_mem_cons.mpr ⟨space, fun d member => ?_⟩, fun d member => ?_⟩
  · exact List.mem_takeWhile_imp (taken ▸ member)
  · exact head?_dropWhile isSpace _ d (dropped ▸ member)

/-- White space in front belongs to the gap that the text begins with, or is one of its own. -/
theorem Lexes.space (space : isSpace c = true) (ends : ∀ d ∈ last.head?, isSpace d = false)
    (lexes : Lexes (offset + c.utf8Size) chars tokens stop last) :
    Lexes offset (c :: chars) tokens stop last := by
  by_cases alone : ∀ d ∈ chars.head?, isSpace d = false
  · have found : Found .gap [c] chars :=
      .spaces (Pattern.mem_spaces.mpr ⟨c, [], space, nofun, rfl⟩) alone
    exact .gap (found.leads (by simp)) (by simpa [byteLength] using lexes)
  · simp only [not_forall, Bool.not_eq_false] at alone
    obtain ⟨d, next, nextSpace⟩ := alone
    cases lexes with
    | here => exact absurd (ends d next) (by simp [nextSpace])
    | @gap _ text rest _ _ _ leads later =>
      obtain ⟨-, spaces, stops⟩ := leads.spaces next nextSpace
      have found : Found .gap (c :: text) rest :=
        .spaces (Pattern.mem_spaces.mpr ⟨c, text, space, spaces, rfl⟩) stops
      refine .gap (found.leads (by simp)) ?_
      rwa [byteLength_cons, ← Nat.add_assoc]
    | token leads _ => cases (leads.spaces next nextSpace).1

/-- The lexer goes through a gap in front of a token or of the end of the text. -/
theorem Gap.lexes (gap : Gap after text) (ends : ∀ c ∈ after.head?, isSpace c = false) (offset : Nat) :
    Lexes offset (text ++ after) [] (offset + byteLength text) after := by
  induction gap generalizing offset with
  | nil => exact .here
  | @space c rest isSpace later ih =>
    rw [byteLength_cons, ← Nat.add_assoc]
    exact .space (by simpa [Lu.isSpace, or_assoc] using isSpace) ends (ih _)
  | @line body rest inLine stops later ih =>
    have found : Found .gap ('/' :: '/' :: body) (rest ++ after) :=
      .lineComment (Pattern.mem_lineComment.mpr ⟨body, inLine, rfl⟩) stops
    rw [byteLength_append, ← Nat.add_assoc, List.append_assoc]
    exact .gap (found.leads (by simp)) (ih _)
  | @block inner rest unclosed later ih =>
    have found : Found .gap ('/' :: '*' :: (inner ++ ['*', '/'])) (rest ++ after) :=
      .blockComment unclosed
    rw [byteLength_append, ← Nat.add_assoc, List.append_assoc]
    exact .gap (found.leads (by simp)) (ih _)

end Gaps

section Tokens

variable {kind : TokenKind} {tokens : List (TokenKind × Separator)}

theorem separatedText_cons (kind : TokenKind) (behind : Separator) :
    separatedText ((kind, behind) :: tokens) =
      kind.spelling ++ (behind.text ++ separatedText tokens) := by
  simp [separatedText]

/-- In front of a separator a token is found as it is spelled. -/
theorem TokenKind.Spellable.leadsIn (spellable : kind.Spellable) (behind : Separator)
    (text : List Char) : kind.LeadsIn (behind.text ++ text) := by
  refine firstPiece_spelling spellable fun c first => ?_
  cases first
  exact kind.runsInto_space behind.isSpace

theorem separatedText_not_space (spellable : ∀ kind ∈ tokens.map Prod.fst, kind.Spellable) :
    ∀ c ∈ (separatedText tokens).head?, isSpace c = false := by
  cases tokens with
  | nil => exact nofun
  | cons pair tokens =>
    obtain ⟨here, -⟩ := List.forall_mem_cons.mp spellable
    rw [separatedText_cons]
    exact (here.leadsIn pair.2 _).not_space

theorem Lexes.separated (spellable : ∀ kind ∈ tokens.map Prod.fst, kind.Spellable) (offset : Nat) :
    ∃ read stop, Lexes offset (separatedText tokens) read stop [] ∧
      read.map Token.kind = tokens.map Prod.fst := by
  induction tokens generalizing offset with
  | nil => exact ⟨[], offset, .here, rfl⟩
  | cons pair tokens ih =>
    obtain ⟨kind, behind⟩ := pair
    obtain ⟨here, later⟩ := List.forall_mem_cons.mp spellable
    have leads : (Lexeme.token kind).Leads kind.spelling (behind.text ++ separatedText tokens) :=
      here.leadsIn behind _
    obtain ⟨read, stop, lexes, kinds⟩ := ih later
      (offset + byteLength kind.spelling + byteLength behind.text)
    have through := behind.gap.lexes (separatedText_not_space later) (offset + byteLength kind.spelling)
    rw [separatedText_cons]
    exact ⟨_, stop, .token leads (through.append lexes), by simp [kinds]⟩

end Tokens

/-- Whatever separators stand before, between and behind them, tokens are read as they were written. -/
theorem separated_tokens_read_back (start : Separator) (tokens : List (TokenKind × Separator))
    (spellable : ∀ kind ∈ tokens.map Prod.fst, kind.Spellable) :
    ∃ read, lex (String.ofList (start.text ++ separatedText tokens)) = .ok read ∧
      read.map Token.kind = tokens.map Prod.fst ++ [.eof] := by
  obtain ⟨read, stop, lexes, kinds⟩ := Lexes.separated spellable (byteLength start.text)
  have through := start.gap.lexes (separatedText_not_space spellable) 0
  rw [Nat.zero_add] at through
  refine ⟨read ++ [endToken stop], lex_eq_ok.mpr ⟨read, stop, ?_, rfl⟩, by simp [kinds, endToken]⟩
  rw [String.toList_ofList]
  exact through.append lexes

/-- Quotes and marks that close nothing in a block comment and in a line comment, then a tab. -/
def quotingGap : Separator :=
  ⟨' ', rfl, [.block ['"', '/', '/', '*'] (by decide), .line ['*', '/', '"', '\\'] (by decide),
    .space '\t' rfl]⟩

def lineEnd : Separator := ⟨'\n', rfl, []⟩

/-- A string that needs escapes and holds the mark of a comment, a slash in front of a comment, a name
that begins like a keyword, and the greatest number. -/
def quotedTokens : List (TokenKind × Separator) :=
  [(.str "a\"\\/*\n", quotingGap), (.mark .slash, quotingGap), (.ident "iffy", lineEnd),
   (.int 9223372036854775807, quotingGap), (.keyword .ifK, lineEnd)]

theorem quoted_tokens_read_back :
    String.ofList (quotingGap.text ++ separatedText quotedTokens) =
        " /*\"//**///*/\"\\\n\t\"a\\\"\\\\/*\\n\" /*\"//**///*/\"\\\n\t/" ++
        " /*\"//**///*/\"\\\n\tiffy\n9223372036854775807 /*\"//**///*/\"\\\n\tif\n" ∧
      (∀ kind ∈ quotedTokens.map Prod.fst, kind.Spellable) ∧
      ∃ read, lex (String.ofList (quotingGap.text ++ separatedText quotedTokens)) = .ok read ∧
        read.map Token.kind = quotedTokens.map Prod.fst ++ [.eof] := by
  have spellable : ∀ kind ∈ quotedTokens.map Prod.fst, kind.Spellable := by
    have word : IsName "iffy" := by decide
    have greatest : (0 : Int64) ≤ 9223372036854775807 := by decide
    simp [quotedTokens, TokenKind.Spellable, word, greatest]
  exact ⟨by decide +kernel, spellable, separated_tokens_read_back quotingGap quotedTokens spellable⟩

end Lu
