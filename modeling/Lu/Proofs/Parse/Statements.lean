import Lu.Proofs.Parse.Expressions

namespace Lu

/-!
The parsers of statements read what covers the tree they return, and fail only where no statement goes
on.
-/

namespace Parser

section Parts

variable {fuel : Nat} {state : ParseState}

theorem typeName_advances (ready : state.cursor.Ready) :
    Advances typeName state (fun read typeName _ => ∃ token, read = [token] ∧
      token.kind = .ident typeName.name ∧ typeName.span = token.span) (· = [.ident ""]) := by
  unfold typeName
  refine .bind_cursor (fun other same => by simp only [same]) ?_
  dsimp only
  split
  · rename_i name current
    have inner : state.cursor.current.kind ≠ .eof := by simp [current]
    exact .bind_advance ready inner fun after behind => .pure behind ⟨_, rfl, current, rfl⟩
  · exact .fail ready (by simp) ⟨_, rfl⟩

theorem typeAfterColon_advances (ready : state.cursor.Ready) :
    Advances typeAfterColon state (fun read typeName _ => TypeAfter read typeName)
      fun tokens => ∃ name, tokens = typeTokens name := by
  unfold typeAfterColon
  refine .bind_eat trivial ready (fun colon after behind isColon => ?_) (.pure ready .none)
  refine (typeName_advances behind).returning (fun _ same => ⟨some "", by rw [same, typeTokens]⟩)
    fun read typeName last ⟨token, shape, isName, span⟩ => ?_
  obtain ⟨name, place⟩ := typeName
  obtain rfl : place = token.span := span
  subst shape
  exact .some isColon isName

theorem varDecl_advances (ready : state.cursor.Ready) :
    Advances (varDecl fuel) state (fun read decl _ => VarDecl.Covers read decl)
      VarDecl.Derivable := by
  have filler := Expr.derivable_nil (Nat.zero_le 9)
  unfold varDecl
  refine .bind_ident ready ⟨_, VarDecl.derivable "" none filler⟩ fun name token after behind isName => ?_
  refine (typeAfterColon_advances behind).bind (fun tokens ⟨typeName, same⟩ => ?_)
    fun types typeName after atMark written => ?_
  · subst same
    exact ⟨_, VarDecl.derivable name typeName filler⟩
  have declared {tokens} (derivable : Expr.Derivable 0 tokens) :=
    VarDecl.derivable name (typeName.map (·.name)) derivable
  simp only [written.kinds.1]
  refine .bind_cursor (fun other same => by simp only [same]) ?_
  refine .bind_eat trivial atMark (fun mark after behind isMark => ?_)
    (.fail atMark (by simp) ⟨_, declared filler⟩)
  exact ((exprsAdvanceAt fuel).expression behind).returning (fun _ derivable => declared derivable)
    fun read e last covers => .intro isName written isMark covers

theorem condition_advances (ready : state.cursor.Ready) :
    Advances (condition fuel) state (fun read e _ => ∃ opening inner closing,
        read = opening :: (inner ++ [closing]) ∧ opening.kind = .mark .leftParen ∧
        Expr.Covers 0 inner e ∧ closing.kind = .mark .rightParen)
      fun tokens => ∃ inner, tokens = .mark .leftParen :: (inner ++ [.mark .rightParen]) ∧
        Expr.Derivable 0 inner := by
  have filler := Expr.derivable_nil (Nat.zero_le 9)
  unfold condition
  refine .bind_expect trivial ready ⟨_, _, rfl, filler⟩ fun opening after behind isOpening => ?_
  refine ((exprsAdvanceAt fuel).expression behind).bind (fun tokens derivable => ⟨_, _, rfl, derivable⟩)
    fun inner e after atClosing covers => ?_
  exact .bind_expect trivial atClosing ⟨[], _, rfl, _, covers.derives⟩
    fun closing last behind isClosing => .pure behind ⟨_, _, _, rfl, isOpening, covers, isClosing⟩

theorem parameters_advances : ∀ (fuel : Nat) {state : ParseState} (before : List Param),
    state.cursor.Ready → Advances (parameters fuel before) state
      (fun read params _ => ∃ parts : List (List Token × Param), parts ≠ [] ∧
        (∀ part ∈ parts, Param.Covers part.1 part.2) ∧ Separated (parts.map (·.1)) read ∧
        params = before.reverse ++ parts.map (·.2))
      fun tokens => ∃ parts : List (String × String), parts ≠ [] ∧
        tokens = separated (parts.map paramTokens)
  | 0, _, _, _ => Advances.outOfFuel
  | fuel + 1, state, before, ready => by
    unfold parameters
    have single (name type : String) : ∃ parts : List (String × String), parts ≠ [] ∧
        [.ident name, .mark .colon, .ident type] = separated (parts.map paramTokens) :=
      ⟨[(name, type)], List.cons_ne_nil _ _, rfl⟩
    refine .bind_ident ready ⟨_, single "" ""⟩ fun name token after behind isName => ?_
    refine .bind_expect trivial behind ⟨_, single name ""⟩ fun colon after behind isColon => ?_
    refine (typeName_advances behind).bind_whole (fun _ same => ?_)
      fun read typeName after behind found => ?_
    · subst same
      exact single name ""
    obtain ⟨typeToken, shape, isType, span⟩ := found
    obtain ⟨type, place⟩ := typeName
    obtain rfl : place = typeToken.span := span
    subst shape
    have covers := Param.Covers.intro isName isColon isType
    simp only [List.map_cons, List.map_nil, isType]
    refine .bind_eat trivial behind (fun comma after behind isComma => ?_) ?_
    · refine (parameters_advances fuel _ behind).mono (fun more derivable => ?_)
        fun more params last covered => ?_
      · obtain ⟨parts, nonempty, same⟩ := derivable
        obtain ⟨part, parts, rfl⟩ := List.exists_cons_of_ne_nil nonempty
        refine ⟨(name, type) :: part :: parts, List.cons_ne_nil _ _, ?_⟩
        rw [same]
        rfl
      · obtain ⟨parts, nonempty, each, separates, same⟩ := covered
        refine ⟨(_, _) :: parts, List.cons_ne_nil _ _, List.forall_mem_cons.mpr ⟨covers, each⟩,
          .more isComma (by simpa using nonempty) separates, by simp [same]⟩
    · exact .pure behind ⟨[(_, _)], List.cons_ne_nil _ _, by simpa using covers, .one, by simp⟩

/-- What the first part of a header reads, in front of which `for` and a parenthesis have been read. -/
theorem forInit_advances (ready : state.cursor.Ready) {word opening : Token} {earlier : List Token}
    (passed : state.cursor.passed = opening :: word :: earlier) (isFor : word.kind = .keyword .forK)
    (isOpening : opening.kind = .mark .leftParen) :
    Advances (forInit fuel) state (fun read init _ => ForInit.Covers read init)
      ForInit.Derivable := by
  unfold forInit
  refine .bind_eat trivial ready (fun mark after behind isLet => ?_) ?_
  · exact (varDecl_advances behind).returning (fun tokens ⟨decl, derives⟩ => ⟨_, .letVar derives⟩)
      fun read decl last covers => .letVar isLet covers
  · refine ((exprsAdvanceAt fuel).expression ready).reached.bind
      (fun _ ⟨_, derives⟩ => derives.becomes_init)
      fun header e after behind ⟨covers, reached⟩ => ?_
    cases isAssign : e.isAssign with
    | true =>
      refine .pure behind ?_
      rw [List.append_nil]
      exact .assign covers isAssign
    | false =>
      refine .stop _ behind (fun _ _ => rfl) ?_ covers.derives.becomes_init
      rw [covers.span]
      have before : after.cursor.passed.reverse = earlier.reverse ++ word :: opening :: header := by
        simp [reached.passed, passed]
      exact .header before isFor isOpening covers isAssign

end Parts

/-- The tokens cover the statements, one after the other. -/
def StmtsCover (tokens : List Token) (statements : List Stmt) : Prop :=
  ∃ parts : List (List Token × Stmt), (∀ part ∈ parts, Stmt.Covers part.1 part.2) ∧
    tokens = parts.flatMap (·.1) ∧ statements = parts.map (·.2)

theorem StmtsCover.nil : StmtsCover [] [] :=
  ⟨[], fun _ member => (List.not_mem_nil member).elim, rfl, rfl⟩

theorem StmtsCover.cons {tokens more : List Token} {s : Stmt} {rest : List Stmt}
    (covers : Stmt.Covers tokens s) (cover : StmtsCover more rest) :
    StmtsCover (tokens ++ more) (s :: rest) := by
  obtain ⟨parts, each, rfl, rfl⟩ := cover
  exact ⟨(tokens, s) :: parts, List.forall_mem_cons.mpr ⟨covers, each⟩, rfl, rfl⟩

theorem StmtsCover.derivable {tokens : List Token} {statements : List Stmt}
    (cover : StmtsCover tokens statements) : Stmt.AllDerivable (tokens.map Token.kind) := by
  obtain ⟨parts, each, rfl, -⟩ := cover
  refine ⟨parts.map fun part => (part.1.map Token.kind, part.2.bare),
    List.forall_mem_map.mpr fun part member => (each part member).derives, ?_⟩
  simp [List.map_flatMap, List.flatMap_map]

/-- How the parsers of statements advance with the given fuel. -/
structure StmtsAdvanceAt (fuel : Nat) : Prop where
  statement {state} : state.cursor.Ready →
    Advances (statement fuel) state (fun read s _ => Stmt.Covers read s) Stmt.Derivable
  ifStatement {state} : state.cursor.Ready → state.cursor.currentKind = .keyword .ifK →
    Advances (Parser.statement fuel) state (fun read s _ => ∃ test thenBranch elseBranch,
        s = .ifElse (extent read) test thenBranch elseBranch ∧ Stmt.Covers read s) Stmt.IfDerivable
  block {state} : state.cursor.Ready →
    Advances (block fuel) state (fun read body _ => Block.Covers read body) Block.Derivable
  statements {state before} : state.cursor.Ready →
    Advances (statements fuel before) state (fun read ss _ => ∃ later, ss = before.reverse ++ later ∧
      StmtsCover read later) Stmt.AllDerivable
  function {state} : state.cursor.Ready →
    Advances (function fuel) state (fun read decl _ => FunctionDecl.Covers read decl)
      FunctionDecl.Derivable
  elseBranch {state} : state.cursor.Ready →
    Advances (elseBranch fuel) state (fun read body _ => ElseCovers read body) ElseDerivable

section Stmts

variable {fuel : Nat} {state : ParseState}

theorem StmtsAdvanceAt.ifStatement_succ (ih : StmtsAdvanceAt fuel) (ready : state.cursor.Ready)
    (current : state.cursor.currentKind = .keyword .ifK) :
    Advances (Parser.statement (fuel + 1)) state (fun read s _ => ∃ test thenBranch elseBranch,
        s = .ifElse (extent read) test thenBranch elseBranch ∧ Stmt.Covers read s)
      Stmt.IfDerivable := by
  have filler := Expr.derivable_nil (Nat.zero_le 9)
  unfold Parser.statement
  refine .reading ?_
  refine .bind_cursor (fun other same => by simp only [Cursor.currentSpan_congr same])
    (.bind_cursor (fun other same => by simp only [Cursor.currentKind_congr same]) ?_)
  simp only [current]
  refine .bind_advance ready (by simp [current]) fun after behind => ?_
  simp only [current]
  refine (condition_advances behind).bind (fun tokens ⟨inner, same, derivable⟩ => ?_)
    fun read test after behind ⟨opening, inner, closing, same, isOpening, covers, isClosing⟩ => ?_
  · subst same
    have whole := Stmt.derivable_ifElse derivable Block.derivable_nil ⟨_, .none⟩
    exact ⟨_, by simpa using whole⟩
  subst same
  simp only [List.map_cons, List.map_append, isOpening, isClosing, List.cons_append, List.append_assoc,
    List.map_nil, List.nil_append]
  have condition : Expr.Derivable 0 (inner.map Token.kind) := ⟨_, covers.derives⟩
  refine (ih.block behind).bind
    (fun tokens derivable => ⟨_, Stmt.derivable_ifElse condition derivable ⟨_, .none⟩⟩)
    fun thenTokens thenBranch after behind thenCovers => ?_
  refine (ih.elseBranch behind).bind_whole
    (fun tokens derivable => Stmt.derivable_ifElse condition ⟨_, thenCovers.derives⟩ derivable)
    fun elseTokens elseBranch after behind elseCovers => .bind_covered (.pure behind fun reached => ?_)
  rw [reached.covered ready (by simp)]
  refine ⟨_, _, _, rfl, .ifElse ?_ current isOpening covers isClosing thenCovers elseCovers⟩
  simp

theorem StmtsAdvanceAt.whileStatement_succ (ih : StmtsAdvanceAt fuel) (ready : state.cursor.Ready)
    (current : state.cursor.currentKind = .keyword .whileK) :
    Advances (Parser.statement (fuel + 1)) state (fun read s _ => Stmt.Covers read s)
      Stmt.Derivable := by
  unfold Parser.statement
  refine .reading ?_
  refine .bind_cursor (fun other same => by simp only [Cursor.currentSpan_congr same])
    (.bind_cursor (fun other same => by simp only [Cursor.currentKind_congr same]) ?_)
  simp only [current]
  refine .bind_advance ready (by simp [current]) fun after behind => ?_
  simp only [current]
  refine (condition_advances behind).bind (fun tokens ⟨inner, same, derivable⟩ => ?_)
    fun read test after behind ⟨opening, inner, closing, same, isOpening, covers, isClosing⟩ => ?_
  · subst same
    have whole := Stmt.derivable_whileLoop derivable Block.derivable_nil
    exact ⟨_, by simpa using whole⟩
  subst same
  simp only [List.map_cons, List.map_append, isOpening, isClosing, List.cons_append,
    List.append_assoc, List.map_nil, List.nil_append]
  refine (ih.block behind).bind_whole
    (fun tokens derivable => Stmt.derivable_whileLoop ⟨_, covers.derives⟩ derivable)
    fun tokens body after behind bodyCovers => .bind_covered (.pure behind fun reached => ?_)
  rw [List.append_nil] at reached ⊢
  rw [reached.covered ready (by simp)]
  exact .whileLoop rfl current isOpening covers isClosing bodyCovers

theorem StmtsAdvanceAt.forStatement_succ (ih : StmtsAdvanceAt fuel) (ready : state.cursor.Ready)
    (current : state.cursor.currentKind = .keyword .forK) :
    Advances (Parser.statement (fuel + 1)) state (fun read s _ => Stmt.Covers read s)
      Stmt.Derivable := by
  have filler := Expr.derivable_nil (Nat.zero_le 9)
  have expression := @(exprsAdvanceAt fuel).expression
  unfold Parser.statement
  refine .reading ?_
  refine .bind_cursor (fun other same => by simp only [Cursor.currentSpan_congr same])
    (.bind_cursor (fun other same => by simp only [Cursor.currentKind_congr same]) ?_)
  simp only [current]
  refine (advance_advances ready (by simp [current])).reached.bind (fun _ => False.elim)
    fun read word after behind ⟨⟨shape, same⟩, atWord⟩ => ?_
  have isFor : word.kind = .keyword .forK := same ▸ current
  subst shape
  simp only [List.map_cons, List.map_nil, List.singleton_append, isFor]
  refine (@expect_advances _ (.mark .leftParen) behind trivial).reached.bind (fun _ same => ?_)
    fun read opening after behind ⟨⟨shape, isOpening⟩, atOpening⟩ => ?_
  · subst same
    have whole := Stmt.derivable_forLoop ForInit.derivable_nil filler filler Block.derivable_nil
    exact ⟨_, whole⟩
  subst shape
  have passed : after.cursor.passed = opening :: word :: state.cursor.passed := by
    rw [atOpening.passed, atWord.passed]
    rfl
  simp only [List.map_cons, List.map_nil, List.singleton_append, isOpening]
  refine (forInit_advances behind passed isFor isOpening).bind
    (fun tokens derivable =>
      ⟨_, Stmt.derivable_forLoop derivable filler filler Block.derivable_nil⟩)
    fun header init after behind initCovers => ?_
  have initDerivable : ForInit.Derivable (header.map Token.kind) := ⟨_, initCovers.derives⟩
  refine .bind_expect trivial behind
    ⟨_, Stmt.derivable_forLoop initDerivable filler filler Block.derivable_nil⟩
    fun first after behind isFirst => ?_
  refine (expression behind).bind
    (fun tokens derivable =>
      ⟨_, Stmt.derivable_forLoop initDerivable derivable filler Block.derivable_nil⟩)
    fun condition test after behind testCovers => ?_
  have testDerivable : Expr.Derivable 0 (condition.map Token.kind) := ⟨_, testCovers.derives⟩
  refine .bind_expect trivial behind
    ⟨_, Stmt.derivable_forLoop initDerivable testDerivable filler Block.derivable_nil⟩
    fun second after behind isSecond => ?_
  refine (expression behind).bind
    (fun tokens derivable =>
      ⟨_, Stmt.derivable_forLoop initDerivable testDerivable derivable Block.derivable_nil⟩)
    fun stepTokens step after behind stepCovers => ?_
  have stepDerivable : Expr.Derivable 0 (stepTokens.map Token.kind) := ⟨_, stepCovers.derives⟩
  refine .bind_expect trivial behind
    ⟨_, Stmt.derivable_forLoop initDerivable testDerivable stepDerivable Block.derivable_nil⟩
    fun closing after behind isClosing => ?_
  refine (ih.block behind).bind_whole
    (fun tokens derivable =>
      Stmt.derivable_forLoop initDerivable testDerivable stepDerivable derivable)
    fun tokens body after behind bodyCovers => .bind_covered (.pure behind fun reached => ?_)
  rw [List.append_nil] at reached ⊢
  rw [reached.covered ready (by simp)]
  refine .forLoop ?_ isFor isOpening initCovers isFirst testCovers isSecond stepCovers isClosing
    bodyCovers
  simp

theorem letStatement_advances (ready : state.cursor.Ready)
    (current : state.cursor.currentKind = .keyword .letK) :
    Advances (Parser.statement (fuel + 1)) state (fun read s _ => Stmt.Covers read s)
      Stmt.Derivable := by
  unfold Parser.statement
  refine .reading ?_
  refine .bind_cursor (fun other same => by simp only [Cursor.currentSpan_congr same])
    (.bind_cursor (fun other same => by simp only [Cursor.currentKind_congr same]) ?_)
  simp only [current]
  refine .bind_advance ready (by simp [current]) fun after behind => ?_
  simp only [current]
  refine (varDecl_advances behind).bind (fun tokens derivable => ⟨_, Stmt.derivable_letVar derivable⟩)
    fun tokens decl after behind covers => ?_
  refine .bind_expect trivial behind ⟨[], Stmt.derivable_letVar ⟨_, covers.derives⟩⟩
    fun semicolon after behind isSemicolon => .bind_covered (.pure behind fun reached => ?_)
  rw [reached.covered ready (by simp)]
  exact .letVar rfl current covers isSemicolon

theorem returnStatement_advances (ready : state.cursor.Ready)
    (current : state.cursor.currentKind = .keyword .returnK) :
    Advances (Parser.statement (fuel + 1)) state (fun read s _ => Stmt.Covers read s)
      Stmt.Derivable := by
  have expression := @(exprsAdvanceAt fuel).expression
  unfold Parser.statement
  refine .reading ?_
  refine .bind_cursor (fun other same => by simp only [Cursor.currentSpan_congr same])
    (.bind_cursor (fun other same => by simp only [Cursor.currentKind_congr same]) ?_)
  simp only [current]
  refine .bind_advance ready (by simp [current]) fun after behind => ?_
  simp only [current]
  refine .bind_cursor (fun other same => by simp only [Cursor.check_congr same]) ?_
  split
  · refine .bind_pure (.bind_expect trivial behind ⟨[], _, .returnNone⟩
      fun semicolon after behind isSemicolon => .bind_covered (.pure behind fun reached => ?_))
    rw [reached.covered ready (by simp)]
    exact .returnNone current isSemicolon
  · rw [bind_map]
    refine (expression behind).bind (fun tokens derivable => ⟨_, Stmt.derivable_return derivable⟩)
      fun tokens e after behind covers => ?_
    refine .bind_expect trivial behind ⟨[], Stmt.derivable_return ⟨_, covers.derives⟩⟩
      fun semicolon after behind isSemicolon => .bind_covered (.pure behind fun reached => ?_)
    rw [reached.covered ready (by simp)]
    exact .returnSome rfl current covers isSemicolon

theorem StmtsAdvanceAt.statement_succ (ih : StmtsAdvanceAt fuel) (ready : state.cursor.Ready) :
    Advances (Parser.statement (fuel + 1)) state (fun read s _ => Stmt.Covers read s)
      Stmt.Derivable := by
  by_cases isIf : state.cursor.currentKind = .keyword .ifK
  · exact (ih.ifStatement_succ ready isIf).mono (fun _ ⟨_, _, _, derives⟩ => ⟨_, derives⟩)
      fun _ _ _ ⟨_, _, _, _, covers⟩ => covers
  by_cases isLet : state.cursor.currentKind = .keyword .letK
  · exact letStatement_advances ready isLet
  by_cases isWhile : state.cursor.currentKind = .keyword .whileK
  · exact ih.whileStatement_succ ready isWhile
  by_cases isFor : state.cursor.currentKind = .keyword .forK
  · exact ih.forStatement_succ ready isFor
  by_cases isReturn : state.cursor.currentKind = .keyword .returnK
  · exact returnStatement_advances ready isReturn
  unfold Parser.statement
  refine .reading ?_
  refine .bind_cursor (fun other same => by simp only [Cursor.currentSpan_congr same])
    (.bind_cursor (fun other same => by simp only [Cursor.currentKind_congr same]) ?_)
  dsimp only
  split
  · exact (isLet ‹_›).elim
  · refine (ih.function ready).bind_whole (fun _ ⟨_, derives⟩ => ⟨_, .function derives⟩)
      fun tokens decl after behind covers => .bind_covered (.pure behind fun reached => ?_)
    rw [List.append_nil] at reached ⊢
    rw [reached.covered ready covers.ne_nil]
    exact .function covers
  · exact (isIf ‹_›).elim
  · exact (isWhile ‹_›).elim
  · exact (isFor ‹_›).elim
  · rename_i current
    refine .bind_advance ready (by simp [current]) fun after behind => ?_
    simp only [current]
    refine .bind_expect trivial behind ⟨[], _, .breakLoop⟩
      fun semicolon after behind isSemicolon => .bind_covered (.pure behind fun reached => ?_)
    rw [reached.covered ready (by simp)]
    exact .breakLoop current isSemicolon
  · rename_i current
    refine .bind_advance ready (by simp [current]) fun after behind => ?_
    simp only [current]
    refine .bind_expect trivial behind ⟨[], _, .continueLoop⟩
      fun semicolon after behind isSemicolon => .bind_covered (.pure behind fun reached => ?_)
    rw [reached.covered ready (by simp)]
    exact .continueLoop current isSemicolon
  · exact (isReturn ‹_›).elim
  · refine (ih.block ready).bind_whole (fun _ ⟨_, derives⟩ => ⟨_, .block derives⟩)
      fun tokens body after behind covers => .bind_covered (.pure behind fun reached => ?_)
    rw [List.append_nil] at reached ⊢
    rw [reached.covered ready covers.ne_nil]
    exact .block covers
  · refine ((exprsAdvanceAt fuel).expression ready).bind
      (fun tokens derivable => ⟨_, Stmt.derivable_expr derivable⟩) fun tokens e after behind covers => ?_
    refine .bind_expect trivial behind ⟨[], Stmt.derivable_expr ⟨_, covers.derives⟩⟩
      fun semicolon after behind isSemicolon => .bind_covered (.pure behind fun reached => ?_)
    rw [reached.covered ready (by simp)]
    exact .expr rfl covers isSemicolon

theorem StmtsAdvanceAt.block_succ (ih : StmtsAdvanceAt fuel) (ready : state.cursor.Ready) :
    Advances (Parser.block (fuel + 1)) state (fun read body _ => Block.Covers read body)
      Block.Derivable := by
  unfold Parser.block
  refine .reading (.bind_expect trivial ready ⟨_, Block.derivable_nil⟩
    fun opening after behind isOpening => ?_)
  refine (ih.statements behind).bind (fun tokens derivable => ⟨_, Block.derivable derivable⟩)
    fun tokens ss after behind covered => ?_
  obtain ⟨later, shape, cover⟩ := covered
  obtain rfl : ss = later := shape
  refine .bind_expect trivial behind ⟨[], Block.derivable cover.derivable⟩
    fun closing last behind isClosing => .pure behind fun reached => ?_
  obtain ⟨parts, each, rfl, rfl⟩ := cover
  have ordered := reached.read_ordered ready
  have span := @Ordered.merge [opening] (parts.flatMap Prod.fst) [closing] ordered (by simp) (by simp)
  rw [extent_singleton, extent_singleton] at span
  rw [span]
  exact .intro rfl isOpening each isClosing

theorem StmtsAdvanceAt.statements_succ (ih : StmtsAdvanceAt fuel) {before : List Stmt}
    (ready : state.cursor.Ready) :
    Advances (Parser.statements (fuel + 1) before) state
      (fun read ss _ => ∃ later, ss = before.reverse ++ later ∧ StmtsCover read later)
      Stmt.AllDerivable := by
  have viable : Stmt.AllDerivable [] := ⟨[], fun _ member => (List.not_mem_nil member).elim, rfl⟩
  unfold Parser.statements
  refine .bind_cursor (fun other same => by simp only [Cursor.check_congr same]) ?_
  split
  · exact .pure ready ⟨[], (List.append_nil _).symm, .nil⟩
  · refine .bind_cursor (fun other same => by simp only [Cursor.isAtEnd_congr same]) ?_
    split
    · refine .bind_cursor (fun other same => by simp only [Cursor.currentSpan_congr same]) ?_
      exact .fail ready (by simp) ⟨[], viable⟩
    · refine (ih.statement ready).bind_whole (fun tokens derivable => ?_)
        fun tokens s after behind covers => ?_
      · obtain ⟨s, derives⟩ := derivable
        exact ⟨[(tokens, s)], by simpa using derives, by simp⟩
      refine (ih.statements behind).mono (fun more derivable => ?_) fun more ss last covered => ?_
      · obtain ⟨parts, each, same⟩ := derivable
        exact ⟨(_, _) :: parts, List.forall_mem_cons.mpr ⟨covers.derives, each⟩, by simp [same]⟩
      · obtain ⟨later, shape, cover⟩ := covered
        exact ⟨s :: later, by simp [shape], cover.cons covers⟩

/-- The part of a function after its parameters. -/
theorem StmtsAdvanceAt.functionRest (ih : StmtsAdvanceAt fuel) (ready : state.cursor.Ready)
    {start : Cursor} (startReady : start.Ready) {word token opening : Token} {inner : List Token}
    {name : String} {parts : List (List Token × Param)} (isFn : word.kind = .keyword .fnK)
    (isName : token.kind = .ident name) (isOpening : opening.kind = .mark .leftParen)
    (each : ∀ part ∈ parts, Param.Covers part.1 part.2)
    (separates : Separated (parts.map (·.1)) inner) :
    Advances (do
        let _ ← expect (.mark .rightParen)
        let resultName ← typeAfterColon
        let body ← Parser.block fuel
        let id ← freshFunction
        return ⟨id, name, token.span, parts.map (·.2), resultName, body, word.span.merge body.span,
          .unset⟩ : Parser FunctionDecl) state
      (fun read decl after =>
        start.Reaches (word :: token :: opening :: (inner ++ read)) after.cursor →
        FunctionDecl.Covers (word :: token :: opening :: (inner ++ read)) decl)
      fun tokens => FunctionDecl.Derivable
        (.keyword .fnK :: .ident name :: .mark .leftParen :: (inner.map Token.kind ++ tokens)) := by
  obtain ⟨names, kinds, -⟩ := params_kinds each separates
  have declared {resultName tokens} (derivable : Block.Derivable tokens) :=
    FunctionDecl.derivable name names resultName derivable
  rw [kinds]
  refine .bind_expect trivial ready ⟨_, @declared none _ Block.derivable_nil⟩
    fun closing after behind isClosing => ?_
  refine (typeAfterColon_advances behind).bind (fun tokens ⟨resultName, same⟩ => ?_)
    fun types resultName after behind written => ?_
  · subst same
    exact ⟨_, declared Block.derivable_nil⟩
  simp only [written.kinds.1]
  refine (ih.block behind).bind_whole (fun tokens derivable => declared derivable)
    fun tokens body after behind covers => ?_
  refine .bind_freshFunction behind fun id last behind => .pure behind fun reached => ?_
  rw [List.append_nil] at reached ⊢
  have ordered := reached.read_ordered startReady
  have whole : word :: token :: opening :: (inner ++ closing :: (types ++ tokens)) =
      [word] ++ ((token :: opening :: inner ++ closing :: types) ++ tokens) := by simp
  rw [whole] at ordered
  have span := ordered.merge (List.cons_ne_nil _ _) covers.ne_nil
  rw [extent_singleton, ← covers.span, ← whole] at span
  rw [span]
  exact .intro (by simp) isFn isName isOpening each separates isClosing written covers

theorem StmtsAdvanceAt.function_succ (ih : StmtsAdvanceAt fuel) (ready : state.cursor.Ready) :
    Advances (Parser.function (fuel + 1)) state (fun read decl _ => FunctionDecl.Covers read decl)
      FunctionDecl.Derivable := by
  have filler (name : String) (params : List (String × String)) :=
    FunctionDecl.derivable name params none Block.derivable_nil
  unfold Parser.function
  refine .reading (.bind_expect trivial ready ⟨_, filler "" []⟩ fun word after behind isFn => ?_)
  refine .bind_ident behind ⟨_, filler "" []⟩ fun name token after behind isName => ?_
  refine .bind_expect trivial behind ⟨_, filler name []⟩ fun opening after behind isOpening => ?_
  refine .bind_cursor (fun other same => by simp only [Cursor.check_congr same]) ?_
  split
  · have none : ∀ part ∈ ([] : List (List Token × Param)), Param.Covers part.1 part.2 :=
      fun _ member => (List.not_mem_nil member).elim
    exact .bind_pure (ih.functionRest behind ready isFn isName isOpening none .nil)
  · refine (parameters_advances fuel [] behind).bind (fun tokens derivable => ?_)
      fun inner params after behind covered => ?_
    · obtain ⟨parts, -, rfl⟩ := derivable
      exact ⟨_, filler name parts⟩
    · obtain ⟨parts, -, each, separates, same⟩ := covered
      obtain rfl : params = parts.map (·.2) := same
      exact ih.functionRest behind ready isFn isName isOpening each separates

theorem StmtsAdvanceAt.elseBranch_succ (ih : StmtsAdvanceAt fuel) (ready : state.cursor.Ready) :
    Advances (Parser.elseBranch (fuel + 1)) state (fun read body _ => ElseCovers read body)
      ElseDerivable := by
  unfold Parser.elseBranch
  refine .bind_eat trivial ready (fun word after behind isElse => ?_) (.pure ready .none)
  refine .bind_cursor (fun other same => by simp only [Cursor.check_congr same]) ?_
  split
  · rename_i isIf
    have fixed : TokenKind.IsFixed (.keyword .ifK) := trivial
    have current : after.cursor.currentKind = .keyword .ifK := (check_of_current fixed rfl).mp isIf
    refine (ih.ifStatement behind current).returning (fun tokens derivable => ?_)
      fun tokens s last covered => ?_
    · obtain ⟨_, _, _, derives⟩ := derivable
      exact ⟨_, .elseIf derives⟩
    · obtain ⟨test, thenBranch, elseBranch, rfl, covers⟩ := covered
      exact .elseIf isElse covers
  · refine (ih.block behind).returning (fun tokens derivable => ?_)
      fun tokens body last covers => .block isElse covers
    obtain ⟨body, derives⟩ := derivable
    exact ⟨_, .block derives⟩

theorem stmtsAdvanceAt : ∀ fuel, StmtsAdvanceAt fuel
  | 0 => by
    constructor <;> intros <;> exact Advances.outOfFuel
  | fuel + 1 => by
    have ih := stmtsAdvanceAt fuel
    exact ⟨ih.statement_succ, ih.ifStatement_succ, ih.block_succ, ih.statements_succ, ih.function_succ,
      ih.elseBranch_succ⟩

end Stmts

theorem programStatements_advances : ∀ (fuel : Nat) {state : ParseState} (before : List Stmt),
    state.cursor.Ready → Advances (programStatements fuel before) state
      (fun read ss after => ∃ later, ss = before.reverse ++ later ∧ StmtsCover read later ∧
        after.cursor.Ready ∧ after.cursor.currentKind = .eof) Stmt.AllDerivable
  | 0, _, _, _ => Advances.outOfFuel
  | fuel + 1, state, before, ready => by
    unfold programStatements
    refine .bind_cursor (fun other same => by simp only [Cursor.isAtEnd_congr same]) ?_
    split
    · rename_i atEnd
      have current := TokenKind.sameKind_eof.mp atEnd
      exact .pure ready ⟨[], (List.append_nil _).symm, .nil, ready, current⟩
    · refine ((stmtsAdvanceAt fuel).statement ready).bind_whole (fun tokens derivable => ?_)
        fun tokens s after behind covers => ?_
      · obtain ⟨s, derives⟩ := derivable
        exact ⟨[(tokens, s)], by simpa using derives, by simp⟩
      refine (programStatements_advances fuel _ behind).mono (fun more derivable => ?_)
        fun more ss last covered => ?_
      · obtain ⟨parts, each, same⟩ := derivable
        exact ⟨(_, _) :: parts, List.forall_mem_cons.mpr ⟨covers.derives, each⟩, by simp [same]⟩
      · obtain ⟨later, shape, cover, atEnd⟩ := covered
        exact ⟨s :: later, by simp [shape], cover.cons covers, atEnd⟩

theorem program_advances (fuel : Nat) {state : ParseState} (ready : state.cursor.Ready) :
    Advances (program fuel) state (fun read p after => ∃ last, after.cursor.ahead = [last] ∧
      Program.Covers (read ++ [last]) p) Stmt.AllDerivable := by
  unfold program
  refine .reading ?_
  refine .bind_cursor (fun other same => by simp only [Cursor.currentSpan_congr same]) ?_
  refine (programStatements_advances fuel [] ready).bind_whole (fun _ derivable => derivable)
    fun read ss after _ ⟨later, shape, cover, behind, current⟩ => ?_
  refine .bind_cursor (fun other same => by simp only [Cursor.currentSpan_congr same])
    (.pure behind fun reached => ?_)
  obtain rfl : ss = later := shape
  rw [List.append_nil] at reached ⊢
  obtain ⟨parts, each, rfl, rfl⟩ := cover
  obtain ⟨rest, ahead⟩ := behind.eq_cons
  have ends := behind.ends
  rw [ahead, List.map_cons, show after.cursor.current.kind = .eof from current] at ends
  obtain rfl : rest = [] := List.map_eq_nil_iff.mp ends.of_eof
  have shape := reached.ahead
  obtain ⟨rest, start⟩ := ready.eq_cons
  rw [ahead] at shape
  have span := ready.ordered.enclosed start shape
  rw [shape] at span
  refine ⟨after.cursor.current, ahead, ?_⟩
  rw [Cursor.currentSpan, Cursor.currentSpan, span]
  exact .intro rfl each current

end Parser

end Lu
