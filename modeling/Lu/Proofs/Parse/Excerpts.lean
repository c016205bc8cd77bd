import Lu.Proofs.Except
import Lu.Proofs.Parse.FirstError
import Lu.Proofs.Parse.Nesting
import Lu.Proofs.Parse.Unambiguous
import Lu.Proofs.Parse.Within
import Lu.Proofs.Token.Cutting
import Lu.Proofs.Tree.Shifted

namespace Lu

/-!
Where the parts of a program stand, and that the text under an expression is that expression again.
-/

section Shifting

variable {offset : Nat} {tokens : List Token}

theorem extent_shift (nonempty : tokens ≠ []) :
    extent (tokens.map (Token.shift offset)) = (extent tokens).shift offset := by
  obtain ⟨first, rest, atFirst⟩ := List.exists_cons_of_ne_nil nonempty
  obtain ⟨init, last, atLast⟩ := tokens.eq_nil_or_concat'.resolve_left nonempty
  have start : (extent (tokens.map (Token.shift offset))).start = (extent tokens).start + offset := by
    rw [atFirst]
    rfl
  have stop : (extent (tokens.map (Token.shift offset))).stop = (extent tokens).stop + offset := by
    rw [atLast, List.map_append, List.map_singleton, extent_last_stop, extent_last_stop]
    rfl
  rw [Span.shift, ← start, ← stop]

theorem Separated.shift {parts : List (List Token)} (separates : Separated parts tokens) :
    Separated (parts.map (·.map (Token.shift offset))) (tokens.map (Token.shift offset)) := by
  induction separates with
  | nil => exact .nil
  | one => exact .one
  | more isComma nonempty _ ih =>
    rw [List.map_append, List.map_cons]
    exact .more isComma (by simpa using nonempty) ih

/-- An expression further behind covers the same tokens further behind. -/
theorem Expr.Covers.shift {level : Nat} {e : Expr} (covers : Expr.Covers level tokens e) :
    Expr.Covers level (tokens.map (Token.shift offset)) (e.shift offset) := by
  have nonempty := covers.ne_nil
  induction covers with
  | tighter low _ ih => exact .tighter low (ih nonempty)
  | assign shape target isMark value ih ih' =>
    rw [Expr.shift, ExprNote.shift, ← extent_shift nonempty, shape, List.map_append]
    exact .assign rfl (ih target.ne_nil) isMark (ih' value.ne_nil)
  | binary shape same low left isMark right ih ih' =>
    rw [Expr.shift, ExprNote.shift, ← extent_shift nonempty, shape, List.map_append]
    exact .binary rfl same low (ih left.ne_nil) isMark (ih' right.ne_nil)
  | power shape left isMark right ih ih' =>
    rw [Expr.shift, ExprNote.shift, ← extent_shift nonempty, shape, List.map_append]
    exact .power rfl (ih left.ne_nil) isMark (ih' right.ne_nil)
  | unary isMark operand ih =>
    rw [Expr.shift, ExprNote.shift, ← extent_shift nonempty]
    exact .unary isMark (ih operand.ne_nil)
  | literal literal => exact .literal literal
  | name isName => exact .name isName
  | @call whole inner name token opening closing args shape isName isOpening each separates isClosing
      ih =>
    rw [Expr.shift, ExprNote.shift, ← extent_shift nonempty, Expr.shiftAll_eq_map, shape,
      List.map_append]
    let parts := args.map fun arg => (arg.1.map (Token.shift offset), arg.2.shift offset)
    have parted : ∀ part ∈ parts, Expr.Covers 0 part.1 part.2 :=
      List.forall_mem_map.mpr fun arg member => ih arg member (each arg member).ne_nil
    have separated : Separated (parts.map (·.1)) (inner.map (Token.shift offset)) := by
      simpa [parts, Function.comp_def] using separates.shift
    have trees : args.map (·.2.shift offset) = parts.map (·.2) := by
      simp [parts]
    rw [List.map_map, Function.comp_def, trees]
    exact .call rfl isName isOpening parted separated isClosing
  | parens shape isOpening inner isClosing ih =>
    rw [Expr.shift_setSpan, ← extent_shift nonempty, shape, List.map_append]
    exact .parens rfl isOpening (ih inner.ne_nil) isClosing

end Shifting

section Lexing

variable {base offset stop : Nat} {chars last : List Char} {tokens : List Token}

/-- Nothing but the spans depends on where the lexer starts. -/
theorem Lexes.rebase (lexes : Lexes (base + offset) chars tokens stop last)
    (fits : stop ≤ Span.lastOffset) : ∃ own end', stop = end' + offset ∧
      Lexes base chars own end' last ∧ tokens = own.map (Token.shift offset) := by
  generalize place : base + offset = start at lexes
  induction lexes generalizing base with
  | here => exact ⟨[], base, place.symm, .here, rfl⟩
  | gap leads _ ih =>
    obtain ⟨own, end', reached, lexes, rfl⟩ := ih fits (by rw [Nat.add_right_comm, place])
    exact ⟨own, end', reached, .gap leads lexes, rfl⟩
  | @token start kind text rest tokens stop last leads later ih =>
    obtain ⟨body, -, length⟩ := later.split
    obtain ⟨own, end', reached, lexes, rfl⟩ := @ih (base + byteLength text) fits (by omega)
    refine ⟨_, end', reached, .token leads lexes, ?_⟩
    rw [List.map_cons, Token.shift, Span.shift, Span.ofRange_eq (by omega) (by omega),
      Span.ofRange_eq (by omega) (by omega), ← place]
    simp only [Nat.add_right_comm]

variable {front part back : List Token}

/-- The text from the first of some tokens to the last one is read as these tokens, whatever comes behind
it that a semicolon leads. -/
theorem Lexes.excerpt {other : List Char} (lexes : Lexes 0 chars (front ++ (part ++ back)) stop last)
    (nonempty : part ≠ []) (fits : stop ≤ Span.lastOffset) (ends : ∀ c ∈ other.head?, c = ';') :
    ∃ before text after own ownStop, chars = before ++ (text ++ after) ∧
      byteLength before = (extent part).start ∧ byteLength (before ++ text) = (extent part).stop ∧
      Lexes 0 (text ++ other) own ownStop other ∧
      part = own.map (Token.shift (extent part).start) := by
  obtain ⟨first, rest, atFirst⟩ := List.exists_cons_of_ne_nil nonempty
  obtain ⟨init, final, atLast⟩ := part.eq_nil_or_concat'.resolve_left nonempty
  -- What is before the first token goes, then what is behind the last one, and last the offset.
  rw [atFirst, List.cons_append] at lexes
  obtain ⟨before, rest', start, headStop, kind, split, startSame, following, forward, within, head⟩ :=
    lexes.cut_before
  rw [← List.cons_append, ← atFirst, atLast, List.append_assoc, List.singleton_append] at following
  obtain ⟨text, after, finalStart, kind', textStop, split', cut, forward', within', isFinal⟩ :=
    following.cut_behind ends
  have startSpan : (extent part).start = start := by
    rw [atFirst, extent_head_start, head, Span.ofRange_eq (by omega) (by omega)]
  have stopSpan : (extent part).stop = textStop := by
    rw [atLast, extent_last_stop, isFinal, Span.ofRange_eq (by omega) (by omega)]
  obtain ⟨text', same, length⟩ := cut.split
  obtain rfl : text = text' := List.append_cancel_right same
  rw [← Nat.zero_add start] at cut
  obtain ⟨own, ownStop, -, ownLexes, ownTokens⟩ := cut.rebase (by omega)
  refine ⟨before, text, after, own, ownStop, by rw [split, split'], by omega, ?_, ownLexes, ?_⟩
  · rw [byteLength_append]
    omega
  · rw [startSpan, ← ownTokens, atLast]

/-- Tokens that the last one is not among come before it. -/
theorem eq_append_of_not_mem {read : List Token} {final : Token}
    (shape : read ++ [final] = front ++ (part ++ back)) (nonempty : part ≠ []) (none : final ∉ part) :
    ∃ behind, read = front ++ (part ++ behind) := by
  obtain rfl | ⟨behind, other, rfl⟩ := back.eq_nil_or_concat'
  · obtain ⟨init, token, rfl⟩ := part.eq_nil_or_concat'.resolve_left nonempty
    rw [List.append_nil, ← List.append_assoc] at shape
    obtain ⟨-, same⟩ := List.append_inj' shape rfl
    exact (none (by simp [List.singleton_inj.mp same])).elim
  · rw [← List.append_assoc, ← List.append_assoc] at shape
    exact ⟨behind, by rw [(List.append_inj' shape rfl).1, List.append_assoc]⟩

/-- The text from the first of some tokens to the last one, and a semicolon behind it, lexes as these
tokens, the semicolon and the end of file. -/
theorem lex_excerpt {source : String} (short : byteLength source.toList ≤ Span.lastOffset)
    (lexed : lex source = .ok (front ++ (part ++ back))) (nonempty : part ≠ [])
    (inner : ∀ token ∈ part, token.kind ≠ .eof) :
    ∃ before text after, source.toList = before ++ (text ++ after) ∧
      byteLength before = (extent part).start ∧ byteLength (before ++ text) = (extent part).stop ∧
      ∃ own semicolon last, lex (String.ofList (text ++ [';'])) = .ok (own ++ [semicolon, last]) ∧
        part = own.map (Token.shift (extent part).start) ∧ semicolon.kind = .mark .semicolon ∧
        last.kind = .eof := by
  obtain ⟨read, stop, lexes, shape⟩ := lex_eq_ok.mp lexed
  obtain ⟨body, whole, length⟩ := lexes.split
  rw [whole, List.append_nil] at short
  obtain ⟨behind, rfl⟩ := eq_append_of_not_mem shape.symm nonempty fun isEnd => inner _ isEnd rfl
  obtain ⟨before, text, after, own, ownStop, split, start, textStop, ownLexes, shifted⟩ :=
    @Lexes.excerpt stop _ _ _ _ _ [';'] lexes nonempty (by omega) (by simp)
  have semicolon : (Lexeme.token (.mark .semicolon)).Leads [';'] [] := ⟨';', [], rfl, rfl⟩
  have lexedOwn := ownLexes.append (.token semicolon .here)
  rw [← String.toList_ofList (l := text ++ [';'])] at lexedOwn
  have lexedText := lex_eq_ok.mpr ⟨_, _, lexedOwn, rfl⟩
  rw [List.append_assoc, List.singleton_append] at lexedText
  exact ⟨before, text, after, split, start, textStop, own, _, _, lexedText, shifted, rfl, rfl⟩

end Lexing

section Parsing

variable {tokens : List Token}

/-- A program that the parser takes from tokens covers them. -/
theorem parse?_covers {program : Program} (ready : (Cursor.ofTokens tokens).Ready)
    (parsed : parse? tokens = some (.ok program)) : Program.Covers tokens program := by
  have advances := Parser.program_advances (parseFuel tokens)
    (show (ParseState.mk (Cursor.ofTokens tokens) 0).cursor.Ready from ready)
  unfold parse? at parsed
  unfold Parser.Advances at advances
  generalize Parser.program _ _ = result at advances parsed
  cases result with
  | done value after =>
    cases parsed
    obtain ⟨read, reached, -, ⟨last, isLast, covers⟩, -⟩ := advances
    have whole : tokens = read ++ after.cursor.ahead := reached.ahead
    rwa [whole, isLast]
  | failed | outOfFuel => cases parsed

/-- What is a statement of an expression without its places is one with them. -/
theorem Stmt.Covers.of_expr {s : Stmt} {e : Expr} (covers : Stmt.Covers tokens s)
    (same : s.bare = .expr Span.nowhere e) : ∃ span e' inner semicolon, s = .expr span e' ∧
      e'.bare = e ∧ tokens = inner ++ [semicolon] ∧ Expr.Covers 0 inner e' := by
  cases covers with
  | expr shape covers _ =>
    cases same
    exact ⟨_, _, _, _, rfl, rfl, shape, covers⟩
  | ifElse =>
    rw [Stmt.bare_ifElse] at same
    cases same
  | _ => cases same

/-- An expression with a semicolon behind it is taken for a program of its own, in which it covers the
same tokens. -/
theorem parse?_alone {e : Expr} {level : Nat} {semicolon last : Token}
    (derives : Expr.Derives level (tokens.map Token.kind) e.bare)
    (isSemicolon : semicolon.kind = .mark .semicolon) (isLast : last.kind = .eof)
    (ready : (Cursor.ofTokens (tokens ++ [semicolon, last])).Ready) :
    ∃ program span e', parse? (tokens ++ [semicolon, last]) = some (.ok program) ∧
      program.statements = [.expr span e'] ∧ Expr.Covers 0 tokens e' ∧ e'.bare = e.bare := by
  let kinds := tokens.map Token.kind ++ [.mark .semicolon]
  have statement : Stmt.Derives kinds (.expr Span.nowhere e.bare) := .expr derives.loosest
  have kindsSame : (tokens ++ [semicolon, last]).map Token.kind = kinds ++ [.eof] := by
    simp [kinds, isSemicolon, isLast]
  have reads : Program.Derives ((tokens ++ [semicolon, last]).map Token.kind)
      ⟨[.expr Span.nowhere e.bare], Span.nowhere⟩ :=
    ⟨[(kinds, _)], List.forall_mem_singleton.mpr statement, by simp [kindsSame], rfl⟩
  obtain ⟨result, run, -⟩ := parse?_reads ⟨kinds, kindsSame, statement.inner⟩
  obtain ⟨program, rfl, bare⟩ := parse?_accepts reads run
  -- What the parser makes of it is known up to places, and the places from what it covers.
  obtain ⟨shape, each, -⟩ := parse?_covers ready run
  rename_i final parts
  have single : (parts.map (·.2)).map Stmt.bare = [.expr Span.nowhere e.bare] :=
    congrArg Program.statements bare
  rw [List.map_map] at single
  obtain ⟨part, rfl, same⟩ := List.map_eq_singleton_iff.mp single
  obtain ⟨span, e', inner, mark, isExpr, bare, inPart, covers⟩ :=
    (each part (List.mem_singleton_self part)).of_expr same
  have tokensSame : tokens ++ [semicolon, last] = inner ++ [mark, final] := by
    simpa [inPart] using shape
  obtain ⟨rfl, -⟩ := List.append_inj' tokensSame rfl
  exact ⟨_, span, e', run, by simp [isExpr], covers, bare⟩

end Parsing

/-- The text of the source under the expression, with a semicolon behind it, is a program of that
expression alone, apart from how far behind it stands. -/
def Expr.ReadsAlone (source : String) (e : Expr) : Prop :=
  ∃ before text after, source.toList = before ++ (text ++ after) ∧
    byteLength before = e.span.start ∧ byteLength (before ++ text) = e.span.stop ∧
    ∃ tokens program span e', lex (String.ofList (text ++ [';'])) = .ok tokens ∧
      parse? tokens = some (.ok program) ∧ program.statements = [.expr span e'] ∧
      e'.shift e.span.start = e

theorem CoversWithin.readsAlone {source : String} {tokens : List Token} {e : Expr}
    (short : byteLength source.toList ≤ Span.lastOffset) (lexed : lex source = .ok tokens)
    (within : CoversWithin tokens e) : e.ReadsAlone source := by
  obtain ⟨front, part, back, level, rfl, covers⟩ := within
  have derives := covers.derives
  have inner : ∀ token ∈ part, token.kind ≠ .eof :=
    fun token member isEnd => derives.inner (isEnd ▸ List.mem_map_of_mem member)
  obtain ⟨before, text, after, split, start, stop, own, semicolon, last, lexedText, shifted,
    isSemicolon, isLast⟩ := lex_excerpt short lexed covers.ne_nil inner
  rw [← covers.span] at start stop shifted
  have kinds : part.map Token.kind = own.map Token.kind := by
    rw [shifted, List.map_map]
    rfl
  rw [kinds] at derives
  obtain ⟨program, span, e', parsed, alone, covers', bare⟩ :=
    parse?_alone derives isSemicolon isLast (lex_ready lexedText)
  have same : Expr.Covers 0 part (e'.shift e.span.start) := shifted ▸ covers'.shift
  refine ⟨before, text, after, split, start, stop, _, program, span, e', lexedText, parsed, alone, ?_⟩
  exact same.unique covers ((Expr.bare_shift e').trans bare)

/-- Every part of a program covers the tokens it was made of, from the start of the first one to the end
of the last one, and what lies in it one behind the other. The text under an expression is that
expression. -/
theorem spans_are_exact_and_nested {source : String} {tokens : List Token} {program : Program}
    (short : byteLength source.toList ≤ Span.lastOffset) (lexed : lex source = .ok tokens)
    (parsed : parse? tokens = some (.ok program)) :
    Program.Covers tokens program ∧ program.region.Nested ∧
      ∀ e, .expr e ∈ program.nodes → e.ReadsAlone source := by
  have ready := lex_ready lexed
  have covers := parse?_covers ready parsed
  exact ⟨covers, covers.nested ready.ordered,
    fun _ member => (covers.node member).readsAlone short lexed⟩

def factorSource : String := "/* ½ */ if (a) \x7b\x7d else if (!b) \x7b x = (y + 1) * 2; \x7d"

/-- The sum that the source multiplies, by its span, which takes in the parentheses. -/
def Node.isFactor : Node → Bool
  | .expr e => e.span == ⟨38, 45⟩
  | _ => false

/-- The sum under an assignment in an `else if` is read alone with its parentheses. -/
theorem factor_reads_alone : ∃ tokens program, lex factorSource = .ok tokens ∧
    parse? tokens = some (.ok program) ∧ Program.Covers tokens program ∧ program.region.Nested ∧
    ∃ e, .expr e ∈ program.nodes ∧ e.span = ⟨38, 45⟩ ∧ e.ReadsAlone factorSource := by
  have found : ((lex factorSource).toOption.any fun tokens => (parse? tokens).any fun parsed =>
      parsed.toOption.any fun program => program.nodes.any Node.isFactor) = true := by decide +kernel
  obtain ⟨tokens, lexed, found⟩ := ok_of_any found
  obtain ⟨_, parsed, found⟩ := (Option.any_eq_true ..).mp found
  obtain ⟨program, rfl, found⟩ := ok_of_any found
  obtain ⟨covers, nested, reads⟩ := spans_are_exact_and_nested (by decide +kernel) lexed parsed
  obtain ⟨node, member, isFactor⟩ := List.any_eq_true.mp found
  cases node with
  | expr e =>
    exact ⟨tokens, program, lexed, parsed, covers, nested, e, member, beq_iff_eq.mp isFactor,
      reads e member⟩
  | _ => cases isFactor

end Lu
