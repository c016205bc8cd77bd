import Lu.Proofs.Parse.Fuel
import Lu.Proofs.Parse.Statements
import Lu.Proofs.Token.Lexing

namespace Lu

/-!
A syntax error points at the first token that fits no program.
-/

/-- The parser takes the tokens for a program. -/
def Accepted (tokens : List Token) : Prop := ∃ program, parse? tokens = some (.ok program)

section Order

theorem Span.ofRange_eq_ite (start stop : Nat) :
    ofRange start stop = if lastOffset < start ∨ lastOffset < stop then point lastOffset
      else ⟨start, stop⟩ := by
  unfold ofRange ofRange?
  by_cases late : lastOffset < start <;> by_cases long : lastOffset < stop <;> simp [late, long]

theorem Span.ofRange_forward {start stop : Nat} (forward : start ≤ stop) :
    (ofRange start stop).start ≤ (ofRange start stop).stop := by
  rw [ofRange_eq_ite]
  split
  · exact Nat.le_refl _
  · exact forward

/-- Spans that do not fit stand at the last offset, behind all that do. -/
theorem Span.ofRange_apart {start stop next last : Nat} (forward : start ≤ stop)
    (apart : stop ≤ next) : (ofRange start stop).stop ≤ (ofRange next last).start := by
  rw [ofRange_eq_ite, ofRange_eq_ite]
  split <;> split <;> simp only [point] <;> omega

/-- The tokens come one after the other, from the offset on. -/
theorem Lexes.ordered {offset stop : Nat} {chars last : List Char} {tokens : List Token}
    (lexes : Lexes offset chars tokens stop last) :
    Ordered (tokens ++ [endToken stop]) ∧ ∀ token ∈ tokens ++ [endToken stop],
      ∃ start stop, offset ≤ start ∧ start ≤ stop ∧ token.span = Span.ofRange start stop := by
  induction lexes with
  | @here offset rest =>
    refine ⟨⟨fun token member => ?_, List.pairwise_singleton ..⟩, fun token member => ?_⟩
    all_goals obtain rfl : token = endToken offset := by simpa using member
    · exact Span.ofRange_forward (Nat.le_refl offset)
    · exact ⟨offset, offset, Nat.le_refl _, Nat.le_refl _, rfl⟩
  | gap _ _ ih =>
    obtain ⟨ordered, placed⟩ := ih
    refine ⟨ordered, fun token member => ?_⟩
    obtain ⟨start, stop, behind, forward, span⟩ := placed token member
    exact ⟨start, stop, by omega, forward, span⟩
  | @token offset kind text rest tokens stop last _ _ ih =>
    obtain ⟨⟨forward, apart⟩, placed⟩ := ih
    have ahead := Nat.le_add_right offset (byteLength text)
    refine ⟨⟨?_, ?_⟩, ?_⟩
    · exact List.forall_mem_cons.mpr ⟨Span.ofRange_forward ahead, forward⟩
    · refine List.pairwise_cons.mpr ⟨fun token member => ?_, apart⟩
      obtain ⟨start, stop, behind, forward, span⟩ := placed token member
      rw [span]
      exact Span.ofRange_apart ahead behind
    · refine List.forall_mem_cons.mpr ⟨⟨offset, _, Nat.le_refl _, ahead, rfl⟩, fun token member => ?_⟩
      obtain ⟨start, stop, behind, forward, span⟩ := placed token member
      exact ⟨start, stop, by omega, forward, span⟩

/-- The parser starts on tokens that are in order. -/
theorem lex_ready {source : String} {tokens : List Token} (lexed : lex source = .ok tokens) :
    (Cursor.ofTokens tokens).Ready := by
  obtain ⟨read, stop, lexes, rfl⟩ := lex_eq_ok.mp lexed
  exact ⟨lex_ends lexed, lexes.ordered.1⟩

end Order

theorem Stmt.AllDerivable.accepted {front : List Token} {more : List TokenKind}
    (derivable : Stmt.AllDerivable (front.map Token.kind ++ more)) :
    ∃ rest, Accepted (front ++ rest) := by
  obtain ⟨parts, each, shape⟩ := derivable
  let rest : List Token := (more ++ [TokenKind.eof]).map (⟨·, Span.nowhere⟩)
  have kinds : (front ++ rest).map Token.kind = parts.flatMap (·.1) ++ [.eof] := by
    simp [rest, ← shape, Function.comp_def]
  have inner : .eof ∉ parts.flatMap (·.1) := by
    have each := fun part member => (each part member).inner
    simpa using each
  have derives : Program.Derives ((front ++ rest).map Token.kind) ⟨parts.map (·.2), Span.nowhere⟩ :=
    ⟨parts, each, kinds, rfl⟩
  obtain ⟨result, run, -⟩ := parse?_reads ⟨_, kinds, inner⟩
  obtain ⟨program, rfl, -⟩ := parse?_accepts derives run
  exact ⟨rest, program, run⟩

/-- Where the parser fails on all that begins with the same tokens, it accepts none of it, whatever fuel
that has. -/
theorem not_accepted {fuel : Nat} {tokens : List Token} {e : ParseError}
    (failed : Parser.program fuel ⟨Cursor.ofTokens tokens, 0⟩ = .failed e) : ¬ Accepted tokens := by
  have lasts {fuel result} (run : Parser.program fuel ⟨Cursor.ofTokens tokens, 0⟩ = result)
      (ends : result ≠ .outOfFuel) : Parser.program fuel ⟨Cursor.ofTokens tokens, 0⟩ ≠ .outOfFuel :=
    run ▸ ends
  -- Acceptance is about the fuel of the tokens accepted, which may be less or more.
  rintro ⟨program, run⟩
  unfold parse? at run
  generalize found : Parser.program (parseFuel tokens) _ = result at run
  cases result with
  | done value after =>
    have same := Parser.program_same (lasts failed nofun) (lasts found nofun)
    rw [failed, found] at same
    cases same
  | failed | outOfFuel => cases run

/-- The error points at a token up to which the tokens are the beginning of a program, while with that
token they are not any more. Only the header of `for` is told at the expression in front of the token:
it has been read, and is no assignment. -/
theorem syntax_error_at_first_impossible_token {source : String} {tokens : List Token} {e : ParseError}
    (lexed : lex source = .ok tokens) (failed : parse? tokens = some (.error e)) :
    ∃ front token back, tokens = front ++ token :: back ∧
      (e.kind ≠ .forHeader → e.span = token.span) ∧
      (e.kind = .forHeader → ∃ earlier word opening header expr,
        front = earlier ++ word :: opening :: header ∧ word.kind = .keyword .forK ∧
        opening.kind = .mark .leftParen ∧ Expr.Covers 0 header expr ∧ expr.isAssign = false ∧
        e.span = expr.span) ∧
      (∃ more, Accepted (front ++ more)) ∧ ∀ more, ¬ Accepted (front ++ token :: more) := by
  have advances := Parser.program_advances (parseFuel tokens)
    (show (ParseState.mk (Cursor.ofTokens tokens) 0).cursor.Ready from lex_ready lexed)
  have run : Parser.program (parseFuel tokens) ⟨Cursor.ofTokens tokens, 0⟩ = .failed e := by
    unfold parse? at failed
    generalize Parser.program _ _ = result at failed
    cases result <;> cases failed
    rfl
  unfold Parser.Advances at advances
  rw [run] at advances
  obtain ⟨front, token, back, shape, place, ⟨more, derivable⟩, again⟩ := advances
  refine ⟨front, token, back, shape, fun other => ?_, fun isHeader => ?_, derivable.accepted,
    fun more => not_accepted (again more)⟩
  · cases place with
    | token => rfl
    | header => exact (other rfl).elim
  · cases place with
    | token other => exact (other isHeader).elim
    | header before isFor isOpening covers isAssign =>
      exact ⟨_, _, _, _, _, before, isFor, isOpening, covers, isAssign, covers.span.symm⟩

def unassignedHeader : String := "for (i + 1; i; i) \x7b\x7d"

def unassignedVariable : String := "let x 1;"

/-- The kind and the span of the syntax error in a source that lexes. -/
def syntaxError? (source : String) : Option (Bool × Span) :=
  match lex source with
  | .ok tokens => match parse? tokens with
    | some (.error ⟨.forHeader, span⟩) => some (true, span)
    | some (.error e) => some (false, e.span)
    | _ => none
  | .error _ => none

theorem syntaxError?_eq_some {source : String} {isHeader : Bool} {span : Span}
    (found : syntaxError? source = some (isHeader, span)) :
    ∃ tokens e, lex source = .ok tokens ∧ parse? tokens = some (.error e) ∧ e.span = span ∧
      (isHeader = true ↔ e.kind = .forHeader) := by
  unfold syntaxError? at found
  split at found
  · rename_i tokens lexed
    split at found <;> cases found
    · rename_i parsed
      exact ⟨tokens, _, lexed, parsed, rfl, by simp⟩
    · rename_i e other parsed
      refine ⟨tokens, e, lexed, parsed, rfl, ⟨nofun, fun isHeader => ?_⟩⟩
      obtain ⟨kind, span⟩ := e
      obtain rfl : kind = .forHeader := isHeader
      exact (other span rfl).elim
  · cases found

/-- The sum in the header is no assignment, and the variable has no value. -/
theorem bare_header_is_impossible :
    (∃ tokens e, lex unassignedHeader = .ok tokens ∧ parse? tokens = some (.error e) ∧
      e.span = ⟨5, 10⟩ ∧ ∃ front token back, tokens = front ++ token :: back ∧
        (∃ earlier header, front = earlier ++ header ∧ extent header = ⟨5, 10⟩) ∧
        (∃ more, Accepted (front ++ more)) ∧ ∀ more, ¬ Accepted (front ++ token :: more)) ∧
    ∃ tokens e, lex unassignedVariable = .ok tokens ∧ parse? tokens = some (.error e) ∧
      e.span = ⟨6, 7⟩ ∧ ∃ front token back, tokens = front ++ token :: back ∧ token.span = ⟨6, 7⟩ ∧
        (∃ more, Accepted (front ++ more)) ∧ ∀ more, ¬ Accepted (front ++ token :: more) := by
  constructor
  · have found : syntaxError? unassignedHeader = some (true, ⟨5, 10⟩) := by decide +kernel
    obtain ⟨tokens, e, lexed, failed, span, isHeader⟩ := syntaxError?_eq_some found
    obtain ⟨front, token, back, shape, -, atHeader, viable, impossible⟩ :=
      syntax_error_at_first_impossible_token lexed failed
    obtain ⟨earlier, word, opening, header, expr, before, -, -, covers, -, same⟩ :=
      atHeader (isHeader.mp rfl)
    refine ⟨tokens, e, lexed, failed, span, front, token, back, shape, ?_, viable, impossible⟩
    exact ⟨earlier ++ [word, opening], header, by simp [before], by rw [← covers.span, ← same, span]⟩
  · have found : syntaxError? unassignedVariable = some (false, ⟨6, 7⟩) := by decide +kernel
    obtain ⟨tokens, e, lexed, failed, span, isHeader⟩ := syntaxError?_eq_some found
    obtain ⟨front, token, back, shape, atToken, -, viable, impossible⟩ :=
      syntax_error_at_first_impossible_token lexed failed
    have other : e.kind ≠ .forHeader := fun same => Bool.false_ne_true (isHeader.mpr same)
    exact ⟨tokens, e, lexed, failed, span, front, token, back, shape, (atToken other).symm.trans span,
      viable, impossible⟩

end Lu
