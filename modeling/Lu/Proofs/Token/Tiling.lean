import Lu.Proofs.Token.Cutting

namespace Lu

/-!
The tokens of a source tile it: nothing lies between them but white space and whole comments. Where the
lexer fails, the text before the error is tiled by its own tokens.
-/

/-- White space, line comments and block comments that are closed, in front of the given text. A line
comment goes up to the end of its line, a block comment up to the first mark that closes it. -/
inductive Gap (after : List Char) : List Char → Prop
  | nil : Gap after []
  | space {c rest} : c ∈ [' ', '\t', '\r', '\n'] → Gap after rest → Gap after (c :: rest)
  | line {body rest} : (∀ c ∈ body, c ≠ '\n') → (∀ c ∈ (rest ++ after).head?, c = '\n') →
      Gap after rest → Gap after ('/' :: '/' :: body ++ rest)
  | block {inner rest} : ¬ ['*', '/'] <:+: inner ++ ['*'] → Gap after rest →
      Gap after ('/' :: '*' :: (inner ++ ['*', '/']) ++ rest)

/-- From an offset on the text consists of the tokens, each on a text of its own, of the gaps before and
between them, and of one gap before the end of file, which is a token without a text. -/
inductive Tiling : Nat → List Char → List Token → Prop
  | done {offset gap} : Gap [] gap →
      Tiling offset gap [⟨.eof, .point (offset + byteLength gap)⟩]
  | token {offset gap text rest kind tokens} : Gap (text ++ rest) gap → text ≠ [] → kind ≠ .eof →
      Tiling (offset + byteLength gap + byteLength text) rest tokens →
      Tiling offset (gap ++ (text ++ rest))
        (⟨kind, ⟨offset + byteLength gap, offset + byteLength gap + byteLength text⟩⟩ :: tokens)

/-- What it means for the tokens that they tile the source. -/
structure Tiles (source : String) (tokens : List Token) : Prop where
  tiling : Tiling 0 source.toList tokens
  /-- The end of file is at the end of the source, and every other token has a text. -/
  ends : ∃ body, tokens = body ++ [⟨.eof, .point (byteLength source.toList)⟩] ∧
    ∀ token ∈ body, token.kind ≠ .eof ∧ token.span.start < token.span.stop
  increasing : tokens.Pairwise fun first later =>
    first.span.start < later.span.start ∧ first.span.stop ≤ later.span.start
  whole : ∀ token ∈ tokens, token.span.InText source.toList

theorem Gap.spaces {after rest : List Char} (later : Gap after rest) {text : List Char}
    (spaces : ∀ c ∈ text, isSpace c = true) : Gap after (text ++ rest) := by
  induction text with
  | nil => exact later
  | cons c text ih =>
    obtain ⟨space, others⟩ := List.forall_mem_cons.mp spaces
    refine .space ?_ (ih others)
    simpa [isSpace, or_assoc] using space

/-- The lexer takes nothing else for a gap. -/
theorem Found.gap {text rest after : List Char} (found : Found .gap text (rest ++ after))
    (later : Gap after rest) : Gap after (text ++ rest) := by
  generalize shape : rest ++ after = back at found
  generalize isGap : Lexeme.gap = lexeme at found
  cases found with
  | spaces spaces =>
    obtain ⟨c, cs, space, others, rfl⟩ := Pattern.mem_spaces.mp spaces
    exact later.spaces (List.forall_mem_cons.mpr ⟨space, others⟩)
  | lineComment line stops =>
    obtain ⟨body, inLine, rfl⟩ := Pattern.mem_lineComment.mp line
    exact .line inLine (shape ▸ stops) later
  | blockComment none => exact .block none later
  | number number => exact (Number.not_gap (isGap ▸ number)).elim
  | _ => cases isGap

namespace Tiling

variable {offset : Nat} {text rest chars : List Char} {tokens : List Token}

/-- A gap in front of a tiled text belongs to the one it begins with. -/
theorem gap (found : Found .gap text rest) (tiling : Tiling (offset + byteLength text) rest tokens) :
    Tiling offset (text ++ rest) tokens := by
  cases tiling with
  | done gap =>
    rw [Nat.add_assoc, ← byteLength_append]
    rw [← List.append_nil rest] at found
    exact .done (found.gap gap)
  | token gap nonempty inner later =>
    rw [Nat.add_assoc offset, ← byteLength_append] at later ⊢
    rw [← List.append_assoc text]
    exact .token (found.gap gap) nonempty inner later

theorem byteLength_pos {text : List Char} (nonempty : text ≠ []) : 0 < byteLength text := by
  obtain ⟨c, more, rfl⟩ := List.exists_cons_of_ne_nil nonempty
  have := c.utf8Size_pos
  rw [byteLength_cons]
  omega

theorem starts (tiling : Tiling offset text tokens) : ∀ token ∈ tokens, offset ≤ token.span.start := by
  induction tiling with
  | done => simp [Span.point]
  | token _ _ _ _ ih =>
    refine List.forall_mem_cons.mpr ⟨Nat.le_add_right _ _, fun token member => ?_⟩
    have later := ih token member
    omega

theorem ends (tiling : Tiling offset text tokens) :
    ∃ body, tokens = body ++ [⟨.eof, .point (offset + byteLength text)⟩] ∧
      ∀ token ∈ body, token.kind ≠ .eof ∧ token.span.start < token.span.stop := by
  induction tiling with
  | done => exact ⟨[], rfl, nofun⟩
  | @token offset gap text rest kind tokens _ nonempty inner _ ih =>
    obtain ⟨body, rfl, others⟩ := ih
    have length := byteLength_pos nonempty
    refine ⟨⟨kind, ⟨offset + byteLength gap, offset + byteLength gap + byteLength text⟩⟩ :: body, ?_,
      List.forall_mem_cons.mpr ⟨⟨inner, Nat.lt_add_of_pos_right length⟩, others⟩⟩
    simp only [byteLength_append, Nat.add_assoc, List.cons_append]

theorem increasing (tiling : Tiling offset text tokens) : tokens.Pairwise fun first later =>
    first.span.start < later.span.start ∧ first.span.stop ≤ later.span.start := by
  induction tiling with
  | done => exact List.pairwise_singleton ..
  | token _ nonempty _ later ih =>
    refine List.pairwise_cons.mpr ⟨fun token member => ?_, ih⟩
    have behind := later.starts token member
    have length := byteLength_pos nonempty
    exact ⟨by simp only; omega, behind⟩

end Tiling

/-- What the lexer reads up to the end of a text tiles it. -/
theorem Lexes.tiling {offset stop : Nat} {chars last : List Char} {tokens : List Token}
    (lexes : Lexes offset chars tokens stop last) (ends : last = [])
    (fits : offset + byteLength chars ≤ Span.lastOffset) :
    Tiling offset chars (tokens ++ [endToken stop]) := by
  induction lexes with
  | @here offset rest =>
    subst ends
    have point : endToken offset = ⟨.eof, .point (offset + byteLength [])⟩ := by
      rw [endToken, Span.ofRange_eq (by omega) (by omega)]
      rfl
    rw [List.nil_append, point]
    exact .done .nil
  | gap leads _ ih =>
    rw [byteLength_append] at fits
    exact (ih ends (by omega)).gap leads.found
  | @token offset kind text rest tokens stop last leads later ih =>
    rw [byteLength_append] at fits
    rw [Span.ofRange_eq (by omega) (by omega)]
    have lexed : Lexes offset (text ++ rest) [_] _ rest := .token leads .here
    have inner : kind ≠ .eof := lexed.inner _ (List.mem_singleton_self _)
    exact .token .nil leads.ne_nil inner (ih ends (by omega))

/-- What lexes tiles, if it is not too long. -/
theorem lex_tiles {source : String} {tokens : List Token}
    (short : byteLength source.toList ≤ Span.lastOffset) (lexed : lex source = .ok tokens) :
    Tiles source tokens := by
  obtain ⟨read, stop, lexes, rfl⟩ := lex_eq_ok.mp lexed
  have tiling := lexes.tiling rfl (by omega)
  have ends := tiling.ends
  rw [Nat.zero_add] at ends
  exact ⟨tiling, ends, tiling.increasing, (lex_inText short).1 _ lexed⟩

/-- The tokens of a source that lexes tile it; if it does not lex, the text before the error lexes, and
its tokens tile that. -/
theorem tokens_tile_source {source : String} (short : byteLength source.toList ≤ Span.lastOffset) :
    (∀ tokens, lex source = .ok tokens → Tiles source tokens) ∧
      ∀ e, lex source = .error e → ∃ before rest, source.toList = before ++ rest ∧
        byteLength before = e.span.start ∧
        ∃ tokens, lex (String.ofList before) = .ok tokens ∧ Tiles (String.ofList before) tokens := by
  refine ⟨fun tokens lexed => lex_tiles short lexed, fun e failed => ?_⟩
  obtain ⟨read, start, text, rest, lexes, -, span⟩ := lex_eq_error.mp failed
  -- Nothing is kept of the text from the error on, and nothing takes its place.
  obtain ⟨before, split, cut⟩ := @Lexes.cut 0 start read [] (text ++ rest) [] _ lexes nofun fun _ => rfl
  obtain ⟨body, shape, reached⟩ := cut.split
  simp only [List.nil_append, List.append_nil] at split cut shape
  subst shape
  rw [Nat.zero_add] at reached
  have length : byteLength before + byteLength (text ++ rest) ≤ Span.lastOffset := by
    rw [← byteLength_append, ← split]
    exact short
  have textFits : byteLength text ≤ byteLength (text ++ rest) := by
    rw [byteLength_append]
    omega
  have lexed : lex (String.ofList before) = .ok (read ++ [endToken start]) :=
    lex_eq_ok.mpr ⟨read, start, by rwa [String.toList_ofList], rfl⟩
  refine ⟨before, text ++ rest, split, ?_, _, lexed, lex_tiles ?_ lexed⟩
  · rw [span, Span.ofRange_eq (by omega) (by omega), reached]
  · rw [String.toList_ofList]
    omega

def commentedSource : String := "/* ½ */ x = 1; // é"

/-- The same text with a character behind it that is no token. -/
def brokenSource : String := "/* ½ */ x = 1; // é\n ½ y"

/-- Characters of two bytes count as such, in comments as elsewhere, and the text before the error is
tiled like the whole one. -/
theorem commented_source_is_tiled :
    (∃ tokens, lex commentedSource = .ok tokens ∧
      tokens.map (·.span) = [⟨9, 10⟩, ⟨11, 12⟩, ⟨13, 14⟩, ⟨14, 15⟩, ⟨21, 21⟩] ∧
      Tiles commentedSource tokens) ∧
    ∃ e, lex brokenSource = .error e ∧ e.span = ⟨23, 25⟩ ∧
      ∃ before rest, brokenSource.toList = before ++ rest ∧ byteLength before = 23 ∧
        ∃ tokens, lex (String.ofList before) = .ok tokens ∧ Tiles (String.ofList before) tokens := by
  constructor
  · have lexes : (match lex commentedSource with
        | .ok tokens =>
          tokens.map (·.span) == [⟨9, 10⟩, ⟨11, 12⟩, ⟨13, 14⟩, ⟨14, 15⟩, ⟨21, 21⟩]
        | .error _ => false) = true := by decide +kernel
    split at lexes
    · rename_i tokens lexed
      exact ⟨tokens, lexed, beq_iff_eq.mp lexes, (tokens_tile_source (by decide +kernel)).1 tokens lexed⟩
    · cases lexes
  · have fails : (match lex brokenSource with
        | .ok _ => false
        | .error e => e.span == ⟨23, 25⟩) = true := by decide +kernel
    split at fails
    · cases fails
    · rename_i e failed
      have span : e.span = ⟨23, 25⟩ := beq_iff_eq.mp fails
      have before := (tokens_tile_source (by decide +kernel)).2 e failed
      rw [span] at before
      exact ⟨e, failed, span, before⟩

end Lu
