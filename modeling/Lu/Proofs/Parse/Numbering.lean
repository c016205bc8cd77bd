import Lu.Proofs.Except
import Lu.Proofs.Parse.Moving
import Lu.Proofs.Parse.Soundness
import Lu.Token.Lexer
import Mathlib.Data.List.Forall2

namespace Lu

/-!
Where the bodies of functions are closed: the numbers of the functions follow the order of the braces
that do so.
-/

/-- The brace at the index closes the body of the function. From `fn` up to it the tokens derive the
function, from some opening brace on the body, and both cover what they derive from. -/
inductive FunctionDecl.ClosedAt (tokens : List Token) (decl : FunctionDecl) : Nat → Prop
  | intro {front header inner back : List Token} {word opening closing : Token} :
      tokens = front ++ (word :: header ++ (opening :: inner ++ [closing])) ++ back →
      FunctionDecl.Derives ((word :: header ++ (opening :: inner ++ [closing])).map Token.kind)
        decl.bare →
      Block.Derives ((opening :: inner ++ [closing]).map Token.kind) decl.body.bare →
      closing.kind = .mark .rightBrace → decl.span = word.span.merge decl.body.span →
      decl.body.span = opening.span.merge closing.span →
      ClosedAt tokens decl (front ++ word :: header ++ opening :: inner).length

theorem FunctionDecl.ClosedAt.append {tokens : List Token} {decl : FunctionDecl} {index : Nat}
    (closed : decl.ClosedAt tokens index) (more : List Token) :
    decl.ClosedAt (tokens ++ more) index := by
  obtain ⟨shape, derives, bodyDerives, isClosing, span, bodySpan⟩ := closed
  exact .intro (by rw [shape, List.append_assoc]) derives bodyDerives isClosing span bodySpan

/-- The functions are closed one after the other, between the two places. -/
def Closed (tokens : List Token) (first last : Nat) (functions : List FunctionDecl) : Prop :=
  first ≤ last ∧ ∃ closings : List Nat,
    List.Forall₂ (FunctionDecl.ClosedAt tokens) functions closings ∧ closings.Pairwise (· < ·) ∧
      ∀ index ∈ closings, first ≤ index ∧ index < last

section Closed

variable {tokens : List Token} {first mid last : Nat} {functions later : List FunctionDecl}

theorem Closed.none (forward : first ≤ last) : Closed tokens first last [] :=
  ⟨forward, [], .nil, .nil, nofun⟩

theorem Closed.one {decl : FunctionDecl} {index : Nat} (closed : decl.ClosedAt tokens index) :
    Closed tokens index (index + 1) [decl] :=
  ⟨Nat.le_succ _, [index], .cons closed .nil, List.pairwise_singleton _ _, by simp⟩

theorem Closed.append (closed : Closed tokens first mid functions)
    (further : Closed tokens mid last later) : Closed tokens first last (functions ++ later) := by
  obtain ⟨forward, closings, each, increasing, between⟩ := closed
  obtain ⟨forward', closings', each', increasing', between'⟩ := further
  refine ⟨Nat.le_trans forward forward', closings ++ closings', List.rel_append each each', ?_, ?_⟩
  · refine List.pairwise_append.mpr ⟨increasing, increasing', fun index member other member' => ?_⟩
    have := between index member
    have := between' other member'
    omega
  · refine List.forall_mem_append.mpr ⟨fun index member => ?_, fun index member => ?_⟩
    · have := between index member
      omega
    · have := between' index member
      omega

theorem Closed.widen {first' last' : Nat} (closed : Closed tokens first last functions)
    (before : first' ≤ first) (behind : last ≤ last') : Closed tokens first' last' functions := by
  obtain ⟨forward, closings, each, increasing, between⟩ := closed
  refine ⟨by omega, closings, each, increasing, fun index member => ?_⟩
  have := between index member
  omega

end Closed

theorem EndsInEof.behind {tokens rest : List TokenKind} (ends : EndsInEof (tokens ++ rest))
    (inner : .eof ∉ tokens) : EndsInEof rest := by
  induction tokens with
  | nil => exact ends
  | cons kind tokens ih =>
    obtain ⟨other, others⟩ := List.ne_and_not_mem_of_not_mem_cons inner
    exact ih (EndsInEof.tail ends (Ne.symm other)) others

namespace Parser

variable {α β : Type} {state : ParseState} {kind : TokenKind} {first : Parser α} {p : Parser β}
  {next : α → Parser β} {tokens : List Token} {post : β → ParseState → Prop}

/-- The state stands in these tokens, in front of their only end of file. -/
structure Within (tokens : List Token) (state : ParseState) : Prop where
  tokens : state.cursor.tokens = tokens
  ends : EndsInEof state.ahead

/-- If the parser succeeds, the promise holds of its value and the state after it. -/
def Attains (p : Parser α) (state : ParseState) (post : α → ParseState → Prop) : Prop :=
  ∀ value after, p state = .done value after → post value after

theorem Moves.within {value : β} {after : ParseState} (moves : Moves p state)
    (within : Within tokens state) (run : p state = .done value after) :
    Within tokens after ∧ ∃ read, state.cursor.Reaches read after.cursor := by
  obtain ⟨read, reached, inner⟩ := moves.reaches run
  refine ⟨⟨reached.tokens_eq.trans within.tokens, ?_⟩, read, reached⟩
  have ends := within.ends
  rw [ParseState.ahead, reached.ahead, List.map_append] at ends
  exact ends.behind fun member => by
    obtain ⟨token, member, isEnd⟩ := List.mem_map.mp member
    exact inner token member isEnd

theorem Attains.pure {value : β} (done : post value state) : Attains (pure value) state post := by
  intro _ _ run
  cases run
  exact done

theorem Attains.bind {mid : α → ParseState → Prop} (within : Within tokens state)
    (moves : Moves first state) (atFirst : Attains first state mid)
    (atNext : ∀ value after read, Within tokens after → state.cursor.Reaches read after.cursor →
      mid value after → Attains (next value) after post) : Attains (first >>= next) state post := by
  intro value last run
  rw [bind_apply] at run
  cases found : first state with
  | done mid after =>
    rw [found] at run
    obtain ⟨inside, read, reached⟩ := moves.within within found
    exact atNext mid after read inside reached (atFirst mid after found) value last run
  | failed | outOfFuel =>
    rw [found] at run
    cases run

/-- A part of which only the tokens are needed. -/
theorem Attains.bind_any (within : Within tokens state) (moves : Moves first state)
    (atNext : ∀ value after read, Within tokens after → state.cursor.Reaches read after.cursor →
      Attains (next value) after post) : Attains (first >>= next) state post := by
  have anything : Attains first state fun _ _ => True := fun _ _ _ => trivial
  exact .bind within moves anything fun value after read inside reached _ =>
    atNext value after read inside reached

theorem Attains.bind_freshFunction {next : Nat → Parser β}
    (later : ∀ id, Attains (next id) { state with nextFunction := state.nextFunction + 1 } post) :
    Attains (freshFunction >>= next) state post :=
  later state.nextFunction

theorem Attains.bind_cursor {next : Cursor → Parser β} (later : Attains (next state.cursor) state post) :
    Attains (cursor >>= next) state post := later

theorem Attains.bind_pure {value : α} (later : Attains (next value) state post) :
    Attains (Pure.pure value >>= next) state post := later

theorem Attains.bind_covered {start : Span} {next : Span → Parser β}
    (later : Attains (next (start.merge state.cursor.previousSpan)) state post) :
    Attains ((do return start.merge (← cursor).previousSpan) >>= next) state post := later

theorem Attains.fail {errorKind : ParseErrorKind} {span : Span} :
    Attains (fail errorKind span) state post := nofun

section Steps

variable {start : Nat} {functions : List FunctionDecl}

/-- A part without functions. -/
theorem Attains.skip (within : Within tokens state) (moves : Moves first state)
    (closed : Closed tokens start state.cursor.position functions)
    (atNext : ∀ value after, Within tokens after →
      Closed tokens start after.cursor.position functions → Attains (next value) after post) :
    Attains (first >>= next) state post := by
  refine .bind_any within moves fun value after read inside reached => ?_
  refine atNext value after inside (closed.widen (Nat.le_refl _) ?_)
  rw [reached.position_eq]
  exact Nat.le_add_right _ _

/-- A part whose functions come next. -/
theorem Attains.close {parts : α → List FunctionDecl} (within : Within tokens state)
    (moves : Moves first state)
    (atFirst : Attains first state fun value after =>
      Closed tokens state.cursor.position after.cursor.position (parts value))
    (closed : Closed tokens start state.cursor.position functions)
    (atNext : ∀ value after, Within tokens after →
      Closed tokens start after.cursor.position (functions ++ parts value) →
      Attains (next value) after post) :
    Attains (first >>= next) state post :=
  .bind within moves atFirst fun value after _ inside _ further =>
    atNext value after inside (closed.append further)

end Steps

theorem expect_attains (within : Within tokens state) (fixed : kind.IsFixed) :
    Attains (expect kind) state fun token after =>
      state.cursor.Reaches [token] after.cursor ∧ token.kind = kind := by
  obtain ⟨⟨passed, ahead⟩, number⟩ := state
  obtain ⟨found, rest, shape⟩ := within.ends.eq_cons
  cases ahead with
  | nil => cases shape
  | cons token ahead =>
    intro value after run
    unfold expect at run
    dsimp only at run
    split at run
    · rename_i hit
      cases run
      exact ⟨⟨rfl, rfl⟩, (TokenKind.sameKind_iff fixed).mp hit⟩
    · cases run

/-- What the tokens that have been read derive may be used to keep the promise. -/
theorem Attains.reading {short : Prop} {derives : List TokenKind → β → ParseState → Prop}
    (reads : Reads p state short derives)
    (attains : Attains p state fun value after =>
      (∀ read, state.cursor.Reaches read after.cursor → derives (read.map Token.kind) value after) →
        post value after) : Attains p state post := by
  intro value after run
  refine attains value after run fun read reached => ?_
  unfold Reads at reads
  rw [run] at reads
  obtain ⟨kinds, shape, -, done⟩ := reads
  rw [ParseState.ahead, reached.ahead, List.map_append] at shape
  rwa [List.append_cancel_right shape]

/-- What the parser of blocks attains: the block covers its braces, and before the last one its functions
are closed. -/
def ClosesBlock (tokens : List Token) (state : ParseState) (body : Block) (after : ParseState) : Prop :=
  ∃ opening inner closing, state.cursor.Reaches (opening :: inner ++ [closing]) after.cursor ∧
    Block.Derives ((opening :: inner ++ [closing]).map Token.kind) body.bare ∧
    closing.kind = .mark .rightBrace ∧ body.span = opening.span.merge closing.span ∧
    Closed tokens state.cursor.position (state.cursor.position + (inner.length + 1)) body.functions

/-- Where the functions that are read with the given fuel are closed. -/
structure StmtsCloseAt (tokens : List Token) (fuel : Nat) : Prop where
  statement {state : ParseState} : Within tokens state → Attains (statement fuel) state fun s after =>
    Closed tokens state.cursor.position after.cursor.position s.functions
  block {state : ParseState} : Within tokens state →
    Attains (block fuel) state (ClosesBlock tokens state)
  statements {state : ParseState} {before} : Within tokens state →
    Attains (statements fuel before) state fun ss after => ∃ later, ss = before.reverse ++ later ∧
      Closed tokens state.cursor.position after.cursor.position (Stmt.allFunctions later)
  function {state : ParseState} : Within tokens state →
    Attains (function fuel) state fun decl after =>
      Closed tokens state.cursor.position after.cursor.position decl.functions
  elseBranch {state : ParseState} : Within tokens state →
    Attains (elseBranch fuel) state fun body after =>
      Closed tokens state.cursor.position after.cursor.position ((body.map Block.functions).getD [])

section Stmts

variable {fuel : Nat}

theorem ClosesBlock.closed {body : Block} {after : ParseState}
    (closes : ClosesBlock tokens state body after) :
    Closed tokens state.cursor.position after.cursor.position body.functions := by
  obtain ⟨opening, inner, closing, reached, -, -, -, closed⟩ := closes
  refine closed.widen (Nat.le_refl _) ?_
  rw [reached.position_eq]
  simp

theorem StmtsCloseAt.blockFunctions (ih : StmtsCloseAt tokens fuel) (within : Within tokens state) :
    Attains (Parser.block fuel) state fun body after =>
      Closed tokens state.cursor.position after.cursor.position body.functions :=
  fun body after run => (ih.block within body after run).closed

theorem StmtsCloseAt.statement_succ (ih : StmtsCloseAt tokens fuel) (within : Within tokens state) :
    Attains (Parser.statement (fuel + 1)) state fun s after =>
      Closed tokens state.cursor.position after.cursor.position s.functions := by
  have expression {state : ParseState} : Moves (Parser.expression fuel) state :=
    (exprsMoveAt fuel).expression
  have block {state : ParseState} : Moves (Parser.block fuel) state := (stmtsMoveAt fuel).block
  have closed : Closed tokens state.cursor.position state.cursor.position [] := .none (Nat.le_refl _)
  unfold Parser.statement
  refine .bind_cursor (.bind_cursor ?_)
  dsimp only
  split
  · rename_i current
    refine .skip within (advance_moves (by simp [current])) closed fun _ after within closed => ?_
    refine .skip within varDecl_moves closed fun decl after within closed => ?_
    exact .skip within (expect_moves trivial) closed fun _ last _ closed => .bind_covered (.pure closed)
  · refine .close within (stmtsMoveAt fuel).function (ih.function within) closed
      fun decl last _ closed => .bind_covered (.pure closed)
  · rename_i current
    refine .skip within (advance_moves (by simp [current])) closed fun _ after within closed => ?_
    refine .skip within condition_moves closed fun test after within closed => ?_
    refine .close within block (ih.blockFunctions within) closed fun thenBranch after within closed => ?_
    refine .close within (stmtsMoveAt fuel).elseBranch (ih.elseBranch within) closed
      fun elseBranch last _ closed => .bind_covered (.pure ?_)
    rw [Stmt.functions_ifElse]
    exact closed
  · rename_i current
    refine .skip within (advance_moves (by simp [current])) closed fun _ after within closed => ?_
    refine .skip within condition_moves closed fun test after within closed => ?_
    exact .close within block (ih.blockFunctions within) closed
      fun body last _ closed => .bind_covered (.pure closed)
  · rename_i current
    refine .skip within (advance_moves (by simp [current])) closed fun _ after within closed => ?_
    refine .skip within (expect_moves trivial) closed fun _ after within closed => ?_
    refine .skip within forInit_moves closed fun init after within closed => ?_
    refine .skip within (expect_moves trivial) closed fun _ after within closed => ?_
    refine .skip within expression closed fun test after within closed => ?_
    refine .skip within (expect_moves trivial) closed fun _ after within closed => ?_
    refine .skip within expression closed fun step after within closed => ?_
    refine .skip within (expect_moves trivial) closed fun _ after within closed => ?_
    exact .close within block (ih.blockFunctions within) closed
      fun body last _ closed => .bind_covered (.pure closed)
  · rename_i current
    refine .skip within (advance_moves (by simp [current])) closed fun _ after within closed => ?_
    exact .skip within (expect_moves trivial) closed fun _ last _ closed => .bind_covered (.pure closed)
  · rename_i current
    refine .skip within (advance_moves (by simp [current])) closed fun _ after within closed => ?_
    exact .skip within (expect_moves trivial) closed fun _ last _ closed => .bind_covered (.pure closed)
  · rename_i current
    refine .skip within (advance_moves (by simp [current])) closed fun _ after within closed => ?_
    refine .bind_cursor ?_
    split
    · exact .bind_pure (.skip within (expect_moves trivial) closed
        fun _ last _ closed => .bind_covered (.pure closed))
    · rw [bind_map]
      refine .skip within expression closed fun value after within closed => ?_
      exact .skip within (expect_moves trivial) closed
        fun _ last _ closed => .bind_covered (.pure closed)
  · exact .close within block (ih.blockFunctions within) closed
      fun body last _ closed => .bind_covered (.pure closed)
  · refine .skip within expression closed fun e after within closed => ?_
    exact .skip within (expect_moves trivial) closed fun _ last _ closed => .bind_covered (.pure closed)

theorem StmtsCloseAt.block_succ (ih : StmtsCloseAt tokens fuel) (within : Within tokens state) :
    Attains (Parser.block (fuel + 1)) state (ClosesBlock tokens state) := by
  refine .reading ((stmtsReadAt (fuel + 1)).block within.ends) ?_
  unfold Parser.block
  refine .bind within (expect_moves trivial) (expect_attains within trivial) ?_
  rintro opening after - behind - ⟨opened, -⟩
  refine .bind behind (stmtsMoveAt fuel).statements (ih.statements behind) ?_
  rintro ss after' inner atClosing reached ⟨later, shape, closed⟩
  refine .bind atClosing (expect_moves trivial) (expect_attains atClosing trivial) ?_
  rintro closing last - - - ⟨ended, isClosing⟩
  refine .pure fun derives => ?_
  obtain rfl : ss = later := shape
  have whole := (opened.trans reached).trans ended
  refine ⟨opening, inner, closing, whole, (derives _ whole).1, isClosing, rfl, closed.widen ?_ ?_⟩
  · rw [opened.position_eq]
    omega
  · rw [(opened.trans reached).position_eq]
    simp [Nat.add_comm]

theorem StmtsCloseAt.statements_succ (ih : StmtsCloseAt tokens fuel) {before : List Stmt}
    (within : Within tokens state) :
    Attains (Parser.statements (fuel + 1) before) state fun ss after =>
      ∃ later, ss = before.reverse ++ later ∧
        Closed tokens state.cursor.position after.cursor.position (Stmt.allFunctions later) := by
  unfold Parser.statements
  refine .bind_cursor ?_
  split
  · exact .pure ⟨[], (List.append_nil _).symm, .none (Nat.le_refl _)⟩
  · refine .bind_cursor ?_
    split
    · exact .bind_cursor .fail
    · refine .bind within (stmtsMoveAt fuel).statement (ih.statement within)
        fun s after _ behind _ closed ss last run => ?_
      obtain ⟨later, shape, further⟩ := ih.statements behind ss last run
      exact ⟨s :: later, by simp [shape], closed.append further⟩

/-- The part of a function after its parameters, in front of which the tokens from `fn` on have been
read. -/
theorem StmtsCloseAt.functionRest (ih : StmtsCloseAt tokens fuel) (within : Within tokens state)
    {start : ParseState} {word : Token} {front : List Token} {name : String} {nameSpan : Span}
    {params : List Param} (before : start.cursor.Reaches (word :: front) state.cursor) :
    Attains (do
        let _ ← expect (.mark .rightParen)
        let resultName ← typeAfterColon
        let body ← Parser.block fuel
        let id ← freshFunction
        return ⟨id, name, nameSpan, params, resultName, body, word.span.merge body.span, .unset⟩ :
          Parser FunctionDecl) state fun decl last =>
      (∀ read, start.cursor.Reaches read last.cursor →
        FunctionDecl.Derives (read.map Token.kind) decl.bare) →
      Closed tokens start.cursor.position last.cursor.position decl.functions := by
  refine .bind_any within (expect_moves trivial) fun _ after paren within parenRead => ?_
  refine .bind_any within typeAfterColon_moves fun resultName after types within typesRead => ?_
  refine .bind within (stmtsMoveAt fuel).block (ih.block within) fun body last _ atEnd _
    ⟨opening, inner, closing, bodyRead, bodyDerives, isClosing, span, closed⟩ => ?_
  refine .bind_freshFunction fun id => .pure fun derives => ?_
  have headerRead : start.cursor.Reaches (word :: (front ++ paren ++ types)) after.cursor :=
    (before.trans parenRead).trans typesRead
  have whole := headerRead.trans bodyRead
  have shape : tokens = start.cursor.passed.reverse ++
      (word :: (front ++ paren ++ types) ++ (opening :: inner ++ [closing])) ++
        last.cursor.ahead := by
    rw [← atEnd.tokens, Cursor.tokens, whole.passed, List.reverse_append, List.reverse_reverse]
  have closedAt := FunctionDecl.ClosedAt.intro shape (derives _ whole) bodyDerives isClosing rfl span
  have index : (start.cursor.passed.reverse ++ word :: (front ++ paren ++ types) ++
      opening :: inner).length = after.cursor.position + (inner.length + 1) := by
    rw [headerRead.position_eq, Cursor.position, List.length_append, List.length_append,
      List.length_reverse, List.length_cons (a := opening)]
  rw [index] at closedAt
  refine (closed.append (.one closedAt)).widen ?_ ?_
  · rw [headerRead.position_eq]
    exact Nat.le_add_right _ _
  · rw [bodyRead.position_eq]
    exact Nat.le_of_eq (by simp [Nat.add_assoc])

theorem StmtsCloseAt.function_succ (ih : StmtsCloseAt tokens fuel) (within : Within tokens state) :
    Attains (Parser.function (fuel + 1)) state fun decl after =>
      Closed tokens state.cursor.position after.cursor.position decl.functions := by
  refine .reading (((stmtsReadAt (fuel + 1)).function within.ends).mono (fun short => short)
    fun _ _ _ read => read.1) ?_
  unfold Parser.function
  refine .bind within (expect_moves trivial) (expect_attains within trivial) ?_
  rintro word after - within - ⟨begun, -⟩
  refine .bind_any within expectIdent_moves fun name after token within nameRead => ?_
  refine .bind_any within (expect_moves trivial) fun _ after paren within parenRead => ?_
  have front := (begun.trans nameRead).trans parenRead
  refine .bind_cursor ?_
  dsimp only
  split
  · exact .bind_pure (ih.functionRest within front)
  · refine .bind_any within (parameters_moves fuel []) fun params after _ within paramsRead => ?_
    exact ih.functionRest within (front.trans paramsRead)

theorem StmtsCloseAt.elseBranch_succ (ih : StmtsCloseAt tokens fuel) (within : Within tokens state) :
    Attains (Parser.elseBranch (fuel + 1)) state fun body after =>
      Closed tokens state.cursor.position after.cursor.position
        ((body.map Block.functions).getD []) := by
  have closed : Closed tokens state.cursor.position state.cursor.position [] := .none (Nat.le_refl _)
  unfold Parser.elseBranch
  refine .skip within (eat_moves trivial) closed fun hit after within closed => ?_
  split
  · refine .bind_cursor ?_
    split
    · refine .close within (stmtsMoveAt fuel).statement (ih.statement within) closed
        fun nestedIf last _ closed => .pure ?_
      simpa [Block.functions, Stmt.allFunctions] using closed
    · exact .close within (stmtsMoveAt fuel).block (ih.blockFunctions within) closed
        fun body last _ closed => .pure closed
  · exact .pure closed

theorem stmtsCloseAt (tokens : List Token) : ∀ fuel, StmtsCloseAt tokens fuel
  | 0 => by
    constructor <;> intros <;> exact nofun
  | fuel + 1 => by
    have ih := stmtsCloseAt tokens fuel
    exact ⟨ih.statement_succ, ih.block_succ, ih.statements_succ, ih.function_succ,
      ih.elseBranch_succ⟩

end Stmts

theorem programStatements_closes : ∀ (fuel : Nat) {state : ParseState} (before : List Stmt),
    Within tokens state → Attains (programStatements fuel before) state fun ss after =>
      ∃ later, ss = before.reverse ++ later ∧
        Closed tokens state.cursor.position after.cursor.position (Stmt.allFunctions later)
  | 0, _, _, _ => nofun
  | fuel + 1, state, before, within => by
    unfold programStatements
    refine .bind_cursor ?_
    split
    · exact .pure ⟨[], (List.append_nil _).symm, .none (Nat.le_refl _)⟩
    · refine .bind within (stmtsMoveAt fuel).statement ((stmtsCloseAt tokens fuel).statement within)
        fun s after _ behind _ closed ss last run => ?_
      obtain ⟨later, shape, further⟩ := programStatements_closes fuel _ behind ss last run
      exact ⟨s :: later, by simp [shape], closed.append further⟩

/-- A program that is read ends where the parser sees the end of file. -/
theorem programStatements_atEnd : ∀ (fuel : Nat) {state : ParseState} (before : List Stmt),
    Attains (programStatements fuel before) state fun _ last => last.cursor.isAtEnd = true
  | 0, _, _ => nofun
  | fuel + 1, state, before => by
    unfold programStatements
    refine .bind_cursor ?_
    split
    · rename_i atEnd
      exact .pure atEnd
    · intro ss last run
      rw [bind_apply] at run
      cases found : statement fuel state with
      | done s after =>
        rw [found] at run
        exact programStatements_atEnd fuel _ ss last run
      | failed | outOfFuel =>
        rw [found] at run
        cases run

end Parser

section Programs

variable {tokens : List Token} {program : Program} {fuel : Nat} {last : ParseState}

theorem Parser.program_eq_done {state : ParseState}
    (run : Parser.program fuel state = .done program last) :
    Parser.programStatements fuel [] state = .done program.statements last := by
  unfold Parser.program at run
  simp only [bind_apply, Parser.cursor] at run
  cases found : Parser.programStatements fuel [] state with
  | done statements after =>
    rw [found] at run
    cases run
    rfl
  | failed | outOfFuel =>
    rw [found] at run
    cases run

/-- Tokens that are read as a program have an end of file, or there are none. -/
theorem Parser.program_some_eof (run : Parser.program fuel ⟨Cursor.ofTokens tokens, 0⟩ =
    .done program last) : tokens = [] ∨ ∃ token ∈ tokens, token.kind = .eof := by
  obtain ⟨read, reached, -⟩ := (Parser.program_moves fuel).reaches run
  have same : last.cursor.tokens = tokens := reached.tokens_eq
  have atEnd := Parser.programStatements_atEnd fuel [] _ last (Parser.program_eq_done run)
  have isEnd : last.cursor.current.kind = .eof := TokenKind.sameKind_eof.mp atEnd
  rw [← same]
  obtain ⟨⟨passed, ahead⟩, number⟩ := last
  cases ahead with
  | cons token ahead => exact .inr ⟨token, by simp [Cursor.tokens], isEnd⟩
  | nil =>
    cases passed with
    | cons token passed => exact .inr ⟨token, by simp [Cursor.tokens], isEnd⟩
    | nil => exact .inl rfl

theorem Parser.program_closes (ends : EndsInEof (tokens.map Token.kind))
    (run : Parser.program fuel ⟨Cursor.ofTokens tokens, 0⟩ = .done program last) :
    program.functionIds = List.range program.functions.length ∧
      ∃ closings : List Nat, List.Forall₂ (FunctionDecl.ClosedAt tokens) program.functions closings ∧
        closings.Pairwise (· < ·) := by
  constructor
  · have reads := Parser.program_reads fuel
      (show EndsInEof (ParseState.ahead ⟨Cursor.ofTokens tokens, 0⟩) from ends)
    unfold Parser.Reads at reads
    rw [run] at reads
    obtain ⟨-, -, -, -, -, numbered⟩ := reads
    rw [List.range_eq_range']
    exact numbered.1
  · have within : Parser.Within tokens ⟨Cursor.ofTokens tokens, 0⟩ := ⟨rfl, ends⟩
    obtain ⟨later, same, -, closings, each, increasing, -⟩ :=
      Parser.programStatements_closes fuel [] within _ last (Parser.program_eq_done run)
    rw [Program.functions, same]
    exact ⟨closings, each, increasing⟩

end Programs

/-- The functions of a program are numbered from 0 on, each with a number of its own, in the order of
the braces that close their bodies. One that stands inside another has the smaller number. -/
theorem function_ids_follow_closing_braces {tokens : List Token} {program : Program}
    (parsed : parse? tokens = some (.ok program)) :
    program.functionIds = List.range program.functions.length ∧
      (∃ closings : List Nat, List.Forall₂ (FunctionDecl.ClosedAt tokens) program.functions closings ∧
        closings.Pairwise (· < ·)) ∧
      ∀ decl ∈ program.functions, ∀ inner ∈ decl.body.functions, inner.id < decl.id := by
  obtain ⟨numbered, closed⟩ : program.functionIds = List.range program.functions.length ∧
      ∃ closings : List Nat, List.Forall₂ (FunctionDecl.ClosedAt tokens) program.functions closings ∧
        closings.Pairwise (· < ·) := by
    unfold parse? at parsed
    cases run : Parser.program (parseFuel tokens) ⟨Cursor.ofTokens tokens, 0⟩ with
    | failed | outOfFuel =>
      rw [run] at parsed
      cases parsed
    | done read last =>
      rw [run] at parsed
      cases parsed
      rcases Parser.program_some_eof run with rfl | some
      · cases run
        exact ⟨rfl, [], .nil, .nil⟩
      · -- Behind the first end of file nothing is read.
        obtain ⟨rest, shape⟩ := uptoEof_append tokens
        have cut := (Parser.program_moves _).same.trans (congrArg Parsed.cut run)
        obtain ⟨numbered, closings, each, increasing⟩ := Parser.program_closes (uptoEof_ends some) cut
        refine ⟨numbered, closings, each.imp fun decl index closed => ?_, increasing⟩
        rw [shape]
        exact closed.append rest
  have increasing : program.functionIds.Pairwise (· < ·) := by
    rw [numbered]
    exact List.pairwise_lt_range
  exact ⟨numbered, closed, fun decl member inner inside =>
    (Stmt.allFunctions_complete program.statements).id_lt (List.pairwise_map.mp increasing) member
      inside⟩

def nestedFunctions : String :=
  "fn f() \x7b fn g() \x7b \x7d \x7d fn f() \x7b fn g() \x7b \x7d fn h() \x7b \x7d \x7d"

/-- Functions of the same name are told apart, and those inside are numbered first. -/
theorem nested_functions_are_numbered : ∃ tokens program, lex nestedFunctions = .ok tokens ∧
    parse? tokens = some (.ok program) ∧
    program.functions.map FunctionDecl.name = ["g", "f", "g", "h", "f"] ∧
    program.functionIds = [0, 1, 2, 3, 4] ∧
    ∃ closings : List Nat, List.Forall₂ (FunctionDecl.ClosedAt tokens) program.functions closings ∧
      closings.Pairwise (· < ·) := by
  have found : ((lex nestedFunctions).toOption.any fun tokens => (parse? tokens).any fun parsed =>
      parsed.toOption.any fun program =>
        program.functions.map FunctionDecl.name == ["g", "f", "g", "h", "f"]) = true := by
    decide +kernel
  obtain ⟨tokens, lexed, found⟩ := ok_of_any found
  obtain ⟨_, parsed, found⟩ := (Option.any_eq_true ..).mp found
  obtain ⟨program, rfl, found⟩ := ok_of_any found
  have names := beq_iff_eq.mp found
  have count : program.functions.length = 5 := by
    rw [← List.length_map FunctionDecl.name, names]
    rfl
  obtain ⟨numbered, closed, -⟩ := function_ids_follow_closing_braces parsed
  rw [count] at numbered
  exact ⟨tokens, program, lexed, parsed, names, numbered, closed⟩

end Lu
