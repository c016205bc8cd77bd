import Lu.Proofs.Parse.Advancing

namespace Lu

/-!
On any tokens a parser that succeeds has moved on over those it has read, and what stands behind an end
of file does not matter to it.
-/

/-- The tokens up to the first end of file, that one included. -/
def uptoEof : List Token → List Token
  | [] => []
  | token :: rest => if token.kind.sameKind .eof then [token] else token :: uptoEof rest

theorem uptoEof_cons_eof {token : Token} (isEnd : token.kind = .eof) (rest : List Token) :
    uptoEof (token :: rest) = [token] := by
  rw [uptoEof, if_pos (TokenKind.sameKind_eof.mpr isEnd)]

theorem uptoEof_cons {token : Token} (inner : token.kind ≠ .eof) (rest : List Token) :
    uptoEof (token :: rest) = token :: uptoEof rest := by
  rw [uptoEof, if_neg (mt TokenKind.sameKind_eof.mp inner)]

/-- What has been left out stands behind. -/
theorem uptoEof_append (tokens : List Token) : ∃ rest, tokens = uptoEof tokens ++ rest := by
  induction tokens with
  | nil => exact ⟨[], rfl⟩
  | cons token tokens ih =>
    obtain ⟨rest, shape⟩ := ih
    by_cases isEnd : token.kind = .eof
    · exact ⟨tokens, by rw [uptoEof_cons_eof isEnd]; rfl⟩
    · exact ⟨rest, by rw [uptoEof_cons isEnd, List.cons_append, ← shape]⟩

theorem uptoEof_ends {tokens : List Token} (some : ∃ token ∈ tokens, token.kind = .eof) :
    EndsInEof ((uptoEof tokens).map Token.kind) := by
  induction tokens with
  | nil => simp at some
  | cons token tokens ih =>
    by_cases isEnd : token.kind = .eof
    · exact ⟨[], by simp [uptoEof_cons_eof isEnd, isEnd], List.not_mem_nil⟩
    · have later : ∃ token ∈ tokens, token.kind = .eof := by simpa [isEnd] using some
      obtain ⟨body, shape, none⟩ := ih later
      refine ⟨token.kind :: body, by simp [uptoEof_cons isEnd, shape], ?_⟩
      simpa [none] using Ne.symm isEnd

namespace Cursor

variable {cursor after : Cursor} {read : List Token}

theorem Reaches.refl (cursor : Cursor) : cursor.Reaches [] cursor := ⟨rfl, rfl⟩

/-- The tokens are the same wherever a reader stands. -/
theorem Reaches.tokens_eq (reached : cursor.Reaches read after) : after.tokens = cursor.tokens := by
  simp [Cursor.tokens, reached.ahead, reached.passed]

theorem Reaches.position_eq (reached : cursor.Reaches read after) :
    after.position = cursor.position + read.length := by
  simp [position, reached.passed, Nat.add_comm]

theorem advance_reaches (inner : cursor.currentKind ≠ .eof) :
    ∃ read, cursor.Reaches read cursor.advance ∧ ∀ token ∈ read, token.kind ≠ .eof := by
  obtain ⟨passed, _ | ⟨token, ahead⟩⟩ := cursor
  · exact ⟨[], .refl _, nofun⟩
  · exact ⟨[token], ⟨rfl, rfl⟩, List.forall_mem_singleton.mpr inner⟩

/-- The cursor without what stands behind the end of file. -/
def cut (cursor : Cursor) : Cursor := { cursor with ahead := uptoEof cursor.ahead }

@[simp] theorem current_cut (cursor : Cursor) : cursor.cut.current = cursor.current := by
  obtain ⟨passed, _ | ⟨token, ahead⟩⟩ := cursor
  · rfl
  · by_cases isEnd : token.kind = .eof
    · simp [cut, current, uptoEof_cons_eof isEnd]
    · simp [cut, current, uptoEof_cons isEnd]

@[simp] theorem currentKind_cut (cursor : Cursor) : cursor.cut.currentKind = cursor.currentKind :=
  currentKind_congr cursor.current_cut

@[simp] theorem currentSpan_cut (cursor : Cursor) : cursor.cut.currentSpan = cursor.currentSpan :=
  currentSpan_congr cursor.current_cut

@[simp] theorem check_cut (cursor : Cursor) (kind : TokenKind) :
    cursor.cut.check kind = cursor.check kind :=
  check_congr cursor.current_cut kind

@[simp] theorem isAtEnd_cut (cursor : Cursor) : cursor.cut.isAtEnd = cursor.isAtEnd :=
  isAtEnd_congr cursor.current_cut

@[simp] theorem previousSpan_cut (cursor : Cursor) :
    cursor.cut.previousSpan = cursor.previousSpan := rfl

theorem advance_cut (inner : cursor.currentKind ≠ .eof) :
    cursor.cut.advance = cursor.advance.cut := by
  obtain ⟨passed, _ | ⟨token, ahead⟩⟩ := cursor
  · rfl
  · have inner' : token.kind ≠ .eof := inner
    simp [cut, advance, uptoEof_cons inner']

end Cursor

/-- The state without what stands behind the end of file. -/
def ParseState.cut (state : ParseState) : ParseState := { state with cursor := state.cursor.cut }

def Parsed.cut {α : Type} : Parsed α → Parsed α
  | .done value after => .done value after.cut
  | .failed e => .failed e
  | .outOfFuel => .outOfFuel

namespace Parser

variable {α β : Type} {state : ParseState} {kind : TokenKind} {first : Parser α} {p q : Parser β}
  {next : α → Parser β}

/-- A parser that succeeds has moved on over tokens none of which is an end of file, and it does the
same if nothing stands behind the end of file. -/
structure Moves (p : Parser α) (state : ParseState) : Prop where
  reaches {value after} : p state = .done value after →
    ∃ read, state.cursor.Reaches read after.cursor ∧ ∀ token ∈ read, token.kind ≠ .eof
  same : p state.cut = (p state).cut

theorem Moves.stay {value : β} (here : p state = .done value state)
    (there : p state.cut = .done value state.cut) : Moves p state where
  reaches run := by
    rw [here] at run
    cases run
    exact ⟨[], .refl _, nofun⟩
  same := by
    rw [here, there]
    rfl

theorem Moves.stop {e : ParseError} (here : p state = .failed e) (there : p state.cut = .failed e) :
    Moves p state where
  reaches run := by
    rw [here] at run
    cases run
  same := by
    rw [here, there]
    rfl

theorem Moves.outOfFuel : Moves (outOfFuel : Parser β) state := ⟨nofun, rfl⟩

theorem Moves.pure {value : β} : Moves (pure value) state := .stay rfl rfl

theorem Moves.fail {errorKind : ParseErrorKind} {span : Span} :
    Moves (fail errorKind span : Parser β) state := .stop rfl rfl

/-- A parser that reads the current token, which is not the end of file. -/
theorem Moves.take {value : β} (inner : state.cursor.currentKind ≠ .eof)
    (here : p state = .done value state.next) (there : p state.cut = .done value state.cut.next) :
    Moves p state where
  reaches run := by
    rw [here] at run
    cases run
    exact Cursor.advance_reaches inner
  same := by
    rw [here, there]
    simp only [Parsed.cut, ParseState.cut, ParseState.next, Cursor.advance_cut inner]

theorem Moves.bind (atFirst : Moves first state)
    (atNext : ∀ value after, Moves (next value) after) : Moves (first >>= next) state where
  reaches := by
    intro value last run
    rw [bind_apply] at run
    cases found : first state with
    | done mid after =>
      rw [found] at run
      obtain ⟨read, reached, inner⟩ := atFirst.reaches found
      obtain ⟨more, further, inner'⟩ := (atNext mid after).reaches run
      exact ⟨read ++ more, reached.trans further, List.forall_mem_append.mpr ⟨inner, inner'⟩⟩
    | failed | outOfFuel =>
      rw [found] at run
      cases run
  same := by
    rw [bind_apply, bind_apply, atFirst.same]
    cases found : first state with
    | done mid after => exact (atNext mid after).same
    | failed | outOfFuel => rfl

/-- What is done next depends on the tokens next to the cursor only. -/
theorem Moves.bind_cursor {next : Cursor → Parser β}
    (same : next state.cursor.cut = next state.cursor) (later : Moves (next state.cursor) state) :
    Moves (cursor >>= next) state where
  reaches := later.reaches
  same := (congrFun same state.cut).trans later.same

theorem advance_moves (inner : state.cursor.currentKind ≠ .eof) : Moves advance state :=
  .take inner rfl (by rw [advance, show state.cut.cursor = state.cursor.cut from rfl,
    Cursor.current_cut]; rfl)

theorem eat_moves (fixed : kind.IsFixed) : Moves (eat kind) state := by
  have there : state.cut.cursor.check kind = state.cursor.check kind := state.cursor.check_cut kind
  by_cases hit : state.cursor.check kind = true
  · have inner : state.cursor.currentKind ≠ .eof := by
      rw [(TokenKind.sameKind_iff fixed).mp hit]
      exact fixed.ne_eof
    exact .take inner (by rw [eat, if_pos hit]; rfl) (by rw [eat, if_pos (there.trans hit)]; rfl)
  · exact .stay (by rw [eat, if_neg hit]) (by rw [eat, there, if_neg hit])

theorem expect_moves (fixed : kind.IsFixed) : Moves (expect kind) state := by
  have there : state.cut.cursor.check kind = state.cursor.check kind := state.cursor.check_cut kind
  have current : state.cut.cursor.current = state.cursor.current := state.cursor.current_cut
  by_cases hit : state.cursor.check kind = true
  · have inner : state.cursor.currentKind ≠ .eof := by
      rw [(TokenKind.sameKind_iff fixed).mp hit]
      exact fixed.ne_eof
    have here : expect kind state = .done state.cursor.current state.next := if_pos hit
    refine .take inner here ?_
    simp only [expect, there, hit, current, if_true]
    rfl
  · refine .stop (if_neg hit) ?_
    simp only [expect, there, hit, current]
    rfl

theorem expectIdent_moves : Moves expectIdent state := by
  have current : state.cut.cursor.current = state.cursor.current := state.cursor.current_cut
  cases found : state.cursor.current.kind with
  | ident name =>
    have inner : state.cursor.currentKind ≠ .eof := by simp [Cursor.currentKind, found]
    have here : expectIdent state = .done (name, state.cursor.current.span) state.next := by
      simp only [expectIdent, found]
      rfl
    refine .take inner here ?_
    simp only [expectIdent, current, found]
    rfl
  | int | float | str | keyword | mark | eof =>
    have here : expectIdent state =
        .failed ⟨.expectedIdentifier state.cursor.current.kind, state.cursor.current.span⟩ := by
      simp only [expectIdent, found]
    refine .stop here ?_
    simp only [expectIdent, current, found]

theorem freshFunction_moves : Moves freshFunction state where
  reaches run := by
    cases run
    exact ⟨[], .refl _, nofun⟩
  same := rfl

theorem Moves.bind_advance {next : Token → Parser β} (current : state.cursor.currentKind = kind)
    (inner : kind ≠ .eof) (later : ∀ token after, Moves (next token) after) :
    Moves (advance >>= next) state :=
  (advance_moves (current ▸ inner)).bind fun token after => later token after

theorem Moves.bind_eat {next : Bool → Parser β} (fixed : kind.IsFixed)
    (later : ∀ hit after, Moves (next hit) after) : Moves (eat kind >>= next) state :=
  (eat_moves fixed).bind fun hit after => later hit after

theorem Moves.bind_expect {next : Token → Parser β} (fixed : kind.IsFixed)
    (later : ∀ token after, Moves (next token) after) : Moves (expect kind >>= next) state :=
  (expect_moves fixed).bind fun token after => later token after

/-- The span of what has been read costs nothing. -/
theorem Moves.bind_covered {start : Span} {next : Span → Parser β}
    (later : Moves (next (start.merge state.cursor.previousSpan)) state) :
    Moves ((do return start.merge (← cursor).previousSpan) >>= next) state :=
  ⟨later.reaches, later.same⟩

theorem Moves.bind_pure {value : α} (later : Moves (next value) state) :
    Moves (Pure.pure value >>= next) state := later

/-- What the parsers of expressions do with the given fuel. -/
structure ExprsMoveAt (fuel : Nat) : Prop where
  expression {state : ParseState} : Moves (expression fuel) state
  operators {state : ParseState} {levels} : Moves (operators fuel levels) state
  operatorTail {state : ParseState} {level tighter left} :
    Moves (operatorTail fuel level tighter left) state
  power {state : ParseState} : Moves (power fuel) state
  unary {state : ParseState} : Moves (unary fuel) state
  primary {state : ParseState} : Moves (primary fuel) state
  nameOrCall {state : ParseState} : Moves (nameOrCall fuel) state
  arguments {state : ParseState} {before} : Moves (arguments fuel before) state

section Exprs

variable {fuel : Nat}

theorem ExprsMoveAt.expression_succ (ih : ExprsMoveAt fuel) :
    Moves (Parser.expression (fuel + 1)) state := by
  unfold Parser.expression
  refine ih.operators.bind fun left after => .bind_eat trivial fun hit after' => ?_
  split
  · exact ih.expression.bind fun right last => .pure
  · exact .pure

theorem ExprsMoveAt.operators_succ (ih : ExprsMoveAt fuel) {levels : List (List (Mark × BinaryOp))} :
    Moves (Parser.operators (fuel + 1) levels) state := by
  unfold Parser.operators
  cases levels with
  | nil => exact ih.power
  | cons level tighter => exact ih.operators.bind fun left after => ih.operatorTail

theorem ExprsMoveAt.operatorTail_succ (ih : ExprsMoveAt fuel) {level : List (Mark × BinaryOp)}
    {tighter : List (List (Mark × BinaryOp))} {left : Expr} :
    Moves (Parser.operatorTail (fuel + 1) level tighter left) state := by
  unfold Parser.operatorTail
  refine .bind_cursor (by simp) ?_
  cases found : operatorIn? level state.cursor.currentKind with
  | none => exact .pure
  | some op =>
    have inner : state.cursor.currentKind ≠ .eof := by
      intro isEnd
      rw [isEnd] at found
      cases found
    refine (advance_moves inner).bind fun _ after => ?_
    exact ih.operators.bind fun right after' => ih.operatorTail

theorem ExprsMoveAt.power_succ (ih : ExprsMoveAt fuel) :
    Moves (Parser.power (fuel + 1)) state := by
  unfold Parser.power
  refine ih.unary.bind fun base after => .bind_eat trivial fun hit after' => ?_
  split
  · exact ih.power.bind fun exponent last => .pure
  · exact .pure

theorem ExprsMoveAt.unary_succ (ih : ExprsMoveAt fuel) :
    Moves (Parser.unary (fuel + 1)) state := by
  unfold Parser.unary
  refine .bind_cursor (by simp) (.bind_cursor (by simp) ?_)
  cases found : prefixOp? state.cursor.currentKind with
  | none => exact ih.primary
  | some op =>
    have inner : state.cursor.currentKind ≠ .eof := by simp [prefixOp?_eq_some.mp found]
    exact (advance_moves inner).bind fun _ after => ih.unary.bind fun operand last => .pure

theorem ExprsMoveAt.primary_succ (ih : ExprsMoveAt fuel) :
    Moves (Parser.primary (fuel + 1)) state := by
  unfold Parser.primary
  refine .bind_cursor (by simp) ?_
  dsimp only
  cases found : literalValue? state.cursor.current.kind with
  | some value =>
    have inner : state.cursor.current.kind ≠ .eof := by
      intro isEnd
      rw [isEnd] at found
      cases found
    exact (advance_moves inner).bind fun _ after => .pure
  | none =>
    dsimp only
    split
    · exact ih.nameOrCall
    · rename_i current
      have inner : state.cursor.currentKind ≠ .eof := by simp [Cursor.currentKind, current]
      refine (advance_moves inner).bind fun _ after => ih.expression.bind fun e after' => ?_
      exact .bind_expect trivial fun close last => .pure
    · exact .fail

theorem ExprsMoveAt.nameOrCall_succ (ih : ExprsMoveAt fuel) :
    Moves (Parser.nameOrCall (fuel + 1)) state := by
  unfold Parser.nameOrCall
  refine expectIdent_moves.bind fun name after => .bind_eat trivial fun hit after' => ?_
  split
  · refine .bind_cursor (by simp) ?_
    split
    · exact .bind_pure (.bind_expect trivial fun close last => .pure)
    · exact ih.arguments.bind fun args last => .bind_expect trivial fun close last => .pure
  · exact .pure

theorem ExprsMoveAt.arguments_succ (ih : ExprsMoveAt fuel) {before : List Expr} :
    Moves (Parser.arguments (fuel + 1) before) state := by
  unfold Parser.arguments
  refine ih.expression.bind fun arg after => .bind_eat trivial fun hit after' => ?_
  split
  · exact ih.arguments
  · exact .pure

theorem exprsMoveAt : ∀ fuel, ExprsMoveAt fuel
  | 0 => by
    constructor <;> intros <;> exact .outOfFuel
  | fuel + 1 => by
    have ih := exprsMoveAt fuel
    exact ⟨ih.expression_succ, ih.operators_succ, ih.operatorTail_succ, ih.power_succ, ih.unary_succ,
      ih.primary_succ, ih.nameOrCall_succ, ih.arguments_succ⟩

end Exprs

section Parts

variable {fuel : Nat}

theorem typeName_moves : Moves typeName state := by
  unfold typeName
  refine .bind_cursor (by simp) ?_
  dsimp only
  split
  · rename_i current
    have inner : state.cursor.currentKind ≠ .eof := by simp [Cursor.currentKind, current]
    exact (advance_moves inner).bind fun _ last => .pure
  · exact .fail

theorem typeAfterColon_moves : Moves typeAfterColon state := by
  unfold typeAfterColon
  refine .bind_eat trivial fun hit after => ?_
  split
  · exact typeName_moves.bind fun typeName last => .pure
  · exact .pure

theorem varDecl_moves : Moves (varDecl fuel) state := by
  unfold varDecl
  refine expectIdent_moves.bind fun name after => typeAfterColon_moves.bind fun type after' => ?_
  refine .bind_cursor (by simp) (.bind_eat trivial fun hit after'' => ?_)
  split
  · exact (exprsMoveAt fuel).expression.bind fun init last => .pure
  · exact .fail

theorem condition_moves : Moves (condition fuel) state := by
  unfold condition
  refine .bind_expect trivial fun _ after => ?_
  refine (exprsMoveAt fuel).expression.bind fun e after' => ?_
  exact .bind_expect trivial fun _ last => .pure

theorem parameters_moves : ∀ (fuel : Nat) {state : ParseState} (before : List Param),
    Moves (parameters fuel before) state
  | 0, _, _ => .outOfFuel
  | fuel + 1, _, before => by
    unfold parameters
    refine expectIdent_moves.bind fun name after => .bind_expect trivial fun _ after' => ?_
    refine typeName_moves.bind fun type after'' => .bind_eat trivial fun hit last => ?_
    split
    · exact parameters_moves fuel _
    · exact .pure

theorem forInit_moves : Moves (forInit fuel) state := by
  unfold forInit
  refine .bind_eat trivial fun hit after => ?_
  split
  · exact varDecl_moves.bind fun decl last => .pure
  · refine (exprsMoveAt fuel).expression.bind fun e last => ?_
    split
    · exact .pure
    · exact .fail

end Parts

/-- What the parsers of statements do with the given fuel. -/
structure StmtsMoveAt (fuel : Nat) : Prop where
  statement {state : ParseState} : Moves (statement fuel) state
  block {state : ParseState} : Moves (block fuel) state
  statements {state : ParseState} {before} : Moves (statements fuel before) state
  function {state : ParseState} : Moves (function fuel) state
  elseBranch {state : ParseState} : Moves (elseBranch fuel) state

section Stmts

variable {fuel : Nat}

theorem StmtsMoveAt.statement_succ (ih : StmtsMoveAt fuel) :
    Moves (Parser.statement (fuel + 1)) state := by
  have expression {state : ParseState} : Moves (Parser.expression fuel) state :=
    (exprsMoveAt fuel).expression
  unfold Parser.statement
  refine .bind_cursor (by simp) (.bind_cursor (by simp) ?_)
  dsimp only
  split
  · rename_i current
    refine .bind_advance current nofun fun _ after => varDecl_moves.bind fun decl after' => ?_
    exact .bind_expect trivial fun _ last => .bind_covered .pure
  · exact ih.function.bind fun decl last => .bind_covered .pure
  · rename_i current
    refine .bind_advance current nofun fun _ after => condition_moves.bind fun test after' => ?_
    refine ih.block.bind fun thenBranch after'' => ih.elseBranch.bind fun elseBranch last => ?_
    exact .bind_covered .pure
  · rename_i current
    refine .bind_advance current nofun fun _ after => condition_moves.bind fun test after' => ?_
    exact ih.block.bind fun body last => .bind_covered .pure
  · rename_i current
    refine .bind_advance current nofun fun _ after => .bind_expect trivial fun _ after => ?_
    refine forInit_moves.bind fun init after => .bind_expect trivial fun _ after => ?_
    refine expression.bind fun test after => .bind_expect trivial fun _ after => ?_
    refine expression.bind fun step after => .bind_expect trivial fun _ after => ?_
    exact ih.block.bind fun body last => .bind_covered .pure
  · rename_i current
    refine .bind_advance current nofun fun _ after => .bind_expect trivial fun _ last => ?_
    exact .bind_covered .pure
  · rename_i current
    refine .bind_advance current nofun fun _ after => .bind_expect trivial fun _ last => ?_
    exact .bind_covered .pure
  · rename_i current
    refine .bind_advance current nofun fun _ after => .bind_cursor (by simp) ?_
    split
    · exact .bind_pure (.bind_expect trivial fun _ last => .bind_covered .pure)
    · rw [bind_map]
      refine expression.bind fun value after' => .bind_expect trivial fun _ last => ?_
      exact .bind_covered .pure
  · exact ih.block.bind fun body last => .bind_covered .pure
  · refine expression.bind fun e after => .bind_expect trivial fun _ last => ?_
    exact .bind_covered .pure

theorem StmtsMoveAt.block_succ (ih : StmtsMoveAt fuel) :
    Moves (Parser.block (fuel + 1)) state := by
  unfold Parser.block
  refine .bind_expect trivial fun start after => ih.statements.bind fun ss after' => ?_
  exact .bind_expect trivial fun stop last => .pure

theorem StmtsMoveAt.statements_succ (ih : StmtsMoveAt fuel) {before : List Stmt} :
    Moves (Parser.statements (fuel + 1) before) state := by
  unfold Parser.statements
  refine .bind_cursor (by simp) ?_
  split
  · exact .pure
  · refine .bind_cursor (by simp) ?_
    split
    · exact .bind_cursor (by simp) .fail
    · exact ih.statement.bind fun s after => ih.statements

theorem StmtsMoveAt.function_succ (ih : StmtsMoveAt fuel) :
    Moves (Parser.function (fuel + 1)) state := by
  unfold Parser.function
  refine .bind_expect trivial fun start after => expectIdent_moves.bind fun name after => ?_
  refine .bind_expect trivial fun _ after => .bind_cursor (by simp) ?_
  have behind (params : List Param) (state : ParseState) : Moves (do
      let _ ← expect (.mark .rightParen)
      let resultName ← typeAfterColon
      let body ← Parser.block fuel
      let id ← freshFunction
      return ⟨id, name.1, name.2, params, resultName, body, start.span.merge body.span, .unset⟩ :
        Parser FunctionDecl) state := by
    refine .bind_expect trivial fun _ after => ?_
    refine typeAfterColon_moves.bind fun type after => ih.block.bind fun body after => ?_
    exact freshFunction_moves.bind fun id last => .pure
  split
  · exact .bind_pure (behind _ _)
  · exact (parameters_moves fuel []).bind fun params after' => behind params after'

theorem StmtsMoveAt.elseBranch_succ (ih : StmtsMoveAt fuel) :
    Moves (Parser.elseBranch (fuel + 1)) state := by
  unfold Parser.elseBranch
  refine .bind_eat trivial fun hit after => ?_
  split
  · refine .bind_cursor (by simp) ?_
    split
    · exact ih.statement.bind fun nestedIf last => .pure
    · exact ih.block.bind fun body last => .pure
  · exact .pure

theorem stmtsMoveAt : ∀ fuel, StmtsMoveAt fuel
  | 0 => by
    constructor <;> intros <;> exact .outOfFuel
  | fuel + 1 => by
    have ih := stmtsMoveAt fuel
    exact ⟨ih.statement_succ, ih.block_succ, ih.statements_succ, ih.function_succ,
      ih.elseBranch_succ⟩

end Stmts

theorem programStatements_moves : ∀ (fuel : Nat) {state : ParseState} (before : List Stmt),
    Moves (programStatements fuel before) state
  | 0, _, _ => .outOfFuel
  | fuel + 1, state, before => by
    unfold programStatements
    refine .bind_cursor (by simp) ?_
    split
    · exact .pure
    · exact (stmtsMoveAt fuel).statement.bind fun s after => programStatements_moves fuel _

theorem program_moves (fuel : Nat) : Moves (program fuel) state := by
  unfold program
  refine .bind_cursor (by simp) ?_
  refine (programStatements_moves fuel []).bind fun ss after => ?_
  exact .bind_cursor (by simp) .pure

end Parser

end Lu
