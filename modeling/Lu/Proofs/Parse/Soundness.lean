import Lu.Proofs.Parse.Reading
import Lu.Proofs.Tree.Bare
import Lu.Proofs.Tree.Functions

namespace Lu

/-!
What the parser reads derives from the grammar, and the fuel lasts: between two tokens the parser
descends through fewer than sixteen rules.
-/

theorem Expr.bare_ofBinary (op : BinaryOp) (left right : Expr) :
    (Expr.ofBinary op left right).bare =
      .binary ⟨Span.nowhere, .unset⟩ op left.bare right.bare := rfl

theorem Expr.bare_ofAssign (target value : Expr) :
    (Expr.ofAssign target value).bare = .assign ⟨Span.nowhere, .unset⟩ target.bare value.bare := rfl

namespace Parser

/-- The expression derives from the tokens, and no number has been given away. -/
def ReadsExpr (level : Nat) (start : ParseState) (tokens : List TokenKind) (e : Expr)
    (last : ParseState) : Prop :=
  Expr.Derives level tokens e.bare ∧ last.nextFunction = start.nextFunction

/-- What the parsers of expressions read with the given fuel. -/
structure ExprsReadAt (fuel : Nat) : Prop where
  expression {state} : EndsInEof state.ahead →
    Reads (expression fuel) state (fuel < 16 * state.left + 12) (ReadsExpr 0 state)
  operators {state index} : EndsInEof state.ahead → index ≤ 6 →
    Reads (operators fuel (binaryLevels.drop index)) state (fuel + index < 16 * state.left + 11)
      (ReadsExpr (index + 1) state)
  operatorTail {state index level left} : EndsInEof state.ahead →
    binaryLevels[index]? = some level →
    Reads (operatorTail fuel level (binaryLevels.drop (index + 1)) left) state
      (fuel < 16 * state.left + 1) fun tokens e last =>
        Expr.Chain (index + 1) left.bare tokens e.bare ∧ last.nextFunction = state.nextFunction
  power {state} : EndsInEof state.ahead →
    Reads (power fuel) state (fuel < 16 * state.left + 4) (ReadsExpr 7 state)
  unary {state} : EndsInEof state.ahead →
    Reads (unary fuel) state (fuel < 16 * state.left + 3) (ReadsExpr 8 state)
  primary {state} : EndsInEof state.ahead →
    Reads (primary fuel) state (fuel < 16 * state.left + 2) (ReadsExpr 9 state)
  nameOrCall {state} : EndsInEof state.ahead →
    Reads (nameOrCall fuel) state (fuel < 16 * state.left + 1) (ReadsExpr 9 state)
  arguments {state before} : EndsInEof state.ahead →
    Reads (arguments fuel before) state (fuel < 16 * state.left + 13) fun tokens args last =>
      ∃ parts : List (List TokenKind × Expr), parts ≠ [] ∧
        (∀ part ∈ parts, Expr.Derives 0 part.1 part.2) ∧ tokens = separated (parts.map (·.1)) ∧
        args.map Expr.bare = before.reverse.map Expr.bare ++ parts.map (·.2) ∧
        last.nextFunction = state.nextFunction

section Exprs

variable {fuel : Nat} {state : ParseState}

/-- The parser of a tighter level reads what the looser one should. -/
theorem ReadsExpr.tighter {level : Nat} {tokens : List TokenKind} {e : Expr} {last : ParseState}
    (low : level < 9) (reads : ReadsExpr (level + 1) state tokens e last) :
    ReadsExpr level state tokens e last :=
  ⟨.tighter low reads.1, reads.2⟩

theorem ExprsReadAt.expression_succ (ih : ExprsReadAt fuel) (ends : EndsInEof state.ahead) :
    Reads (Parser.expression (fuel + 1)) state (fuel + 1 < 16 * state.left + 12)
      (ReadsExpr 0 state) := by
  have atOperators := ih.operators ends (Nat.zero_le 6)
  unfold Parser.expression
  refine (atOperators.shorter (by omega)).bind
    fun tokens target after ends left ⟨derives, number⟩ => ?_
  refine .bind_eat trivial ends (fun after' ends left' number' => ?_) ?_
  · refine ((ih.expression ends).shorter (by omega)).bind
      fun more value after'' ends _ ⟨derives', number''⟩ => ?_
    refine .pure ends ⟨?_, by omega⟩
    rw [Expr.bare_ofAssign, List.append_nil]
    exact .assign derives derives'
  · exact .pure ends ⟨by simpa using Expr.Derives.tighter (by decide) derives, number⟩

theorem ExprsReadAt.operators_succ (ih : ExprsReadAt fuel) {index : Nat}
    (ends : EndsInEof state.ahead) (low : index ≤ 6) :
    Reads (Parser.operators (fuel + 1) (binaryLevels.drop index)) state
      (fuel + 1 + index < 16 * state.left + 11) (ReadsExpr (index + 1) state) := by
  cases atLevel : binaryLevels[index]? with
  | none =>
    obtain rfl : index = 6 := Nat.le_antisymm low (List.getElem?_eq_none_iff.mp atLevel)
    unfold Parser.operators
    exact (ih.power ends).shorter (by omega)
  | some level =>
    obtain ⟨bound, rfl⟩ := List.getElem?_eq_some_iff.mp atLevel
    have bound' : index < 6 := bound
    rw [List.drop_eq_getElem_cons bound]
    unfold Parser.operators
    refine ((ih.operators ends bound').shorter (by omega)).bind
      fun tokens left after ends consumed ⟨derives, number⟩ => ?_
    have := derives.length_pos
    refine (ih.operatorTail ends atLevel).mono (by omega) fun more e last ⟨chain, number'⟩ => ?_
    exact ⟨chain.derives (by omega) (.tighter (by omega) derives), number'.trans number⟩

theorem ExprsReadAt.operatorTail_succ (ih : ExprsReadAt fuel) {index : Nat}
    {level : List (Mark × BinaryOp)} {left : Expr} (ends : EndsInEof state.ahead)
    (atLevel : binaryLevels[index]? = some level) :
    Reads (Parser.operatorTail (fuel + 1) level (binaryLevels.drop (index + 1)) left) state
      (fuel + 1 < 16 * state.left + 1) fun tokens e last =>
        Expr.Chain (index + 1) left.bare tokens e.bare ∧ last.nextFunction = state.nextFunction := by
  have low : index + 1 ≤ 6 := (List.getElem?_eq_some_iff.mp atLevel).1
  unfold Parser.operatorTail
  refine .bind_cursor ?_
  split
  · exact .pure ends ⟨.done, rfl⟩
  · rename_i op found
    obtain ⟨current, atOp⟩ := (operatorIn?_eq_some atLevel).mp found
    refine .bind_advance ends current nofun fun after ends consumed number => ?_
    refine ((ih.operators ends low).shorter (by omega)).bind
      fun tokens right after' ends consumed' ⟨derives, number'⟩ => ?_
    refine (ih.operatorTail ends atLevel).mono (by omega) fun more e last ⟨chain, number''⟩ => ?_
    refine ⟨?_, by omega⟩
    exact .more atOp derives chain

theorem ExprsReadAt.power_succ (ih : ExprsReadAt fuel) (ends : EndsInEof state.ahead) :
    Reads (Parser.power (fuel + 1)) state (fuel + 1 < 16 * state.left + 4) (ReadsExpr 7 state) := by
  unfold Parser.power
  refine ((ih.unary ends).shorter (by omega)).bind
    fun tokens base after ends left ⟨derives, number⟩ => ?_
  refine .bind_eat trivial ends (fun after' ends left' number' => ?_) ?_
  · refine ((ih.power ends).shorter (by omega)).bind
      fun more exponent after'' ends _ ⟨derives', number''⟩ => ?_
    refine .pure ends ⟨?_, by omega⟩
    rw [Expr.bare_ofBinary, List.append_nil]
    exact .power derives derives'
  · exact .pure ends ⟨by simpa using Expr.Derives.tighter (by decide) derives, number⟩

theorem ExprsReadAt.unary_succ (ih : ExprsReadAt fuel) (ends : EndsInEof state.ahead) :
    Reads (Parser.unary (fuel + 1)) state (fuel + 1 < 16 * state.left + 3) (ReadsExpr 8 state) := by
  unfold Parser.unary
  refine .bind_cursor (.bind_cursor ?_)
  split
  · rename_i op found
    refine .bind_advance ends (prefixOp?_eq_some.mp found) nofun fun after ends left number => ?_
    refine ((ih.unary ends).shorter (by omega)).bind
      fun tokens operand after' ends _ ⟨derives, number'⟩ => ?_
    refine .pure ends ⟨?_, by omega⟩
    rw [List.append_nil]
    exact .unary derives
  · exact (ih.primary ends).mono (by omega) fun _ _ _ reads => reads.tighter (by decide)

theorem ExprsReadAt.primary_succ (ih : ExprsReadAt fuel) (ends : EndsInEof state.ahead) :
    Reads (Parser.primary (fuel + 1)) state (fuel + 1 < 16 * state.left + 2)
      (ReadsExpr 9 state) := by
  unfold Parser.primary
  refine .bind_cursor ?_
  dsimp only
  split
  · rename_i value found
    have literal := literalValue?_eq_some.mp found
    have other : state.cursor.currentKind ≠ .eof := fun same => by
      rw [show state.cursor.current.kind = .eof from same] at literal
      cases literal
    refine .bind_advance ends rfl other fun after ends left number => ?_
    exact .pure ends ⟨.literal literal, number⟩
  · split
    · exact (ih.nameOrCall ends).shorter (by omega)
    · rename_i current
      refine .bind_advance ends current nofun fun after ends left number => ?_
      refine ((ih.expression ends).shorter (by omega)).bind
        fun tokens inner after' ends left' ⟨derives, number'⟩ => ?_
      refine .bind_expect trivial ends fun close after'' ends _ number'' => ?_
      refine .pure ends ⟨?_, by omega⟩
      rw [Expr.bare_setSpan]
      exact .parens derives
    · exact .fail

theorem ExprsReadAt.nameOrCall_succ (ih : ExprsReadAt fuel) (ends : EndsInEof state.ahead) :
    Reads (Parser.nameOrCall (fuel + 1)) state (fuel + 1 < 16 * state.left + 1)
      (ReadsExpr 9 state) := by
  unfold Parser.nameOrCall
  refine .bind_ident ends fun name span after ends left number => ?_
  refine .bind_eat trivial ends (fun after' ends left' number' => ?_) ?_
  · refine .bind_cursor ?_
    split
    · refine .bind_expect trivial ends fun close after'' ends _ number'' => ?_
      refine .pure ends ⟨?_, by omega⟩
      have none : ∀ arg ∈ ([] : List (List TokenKind × Expr)), Expr.Derives 0 arg.1 arg.2 :=
        fun _ member => (List.not_mem_nil member).elim
      exact .call none
    · refine ((ih.arguments ends).shorter (by omega)).bind
        fun tokens args after'' ends left'' ⟨parts, _, derive, same, trees, number''⟩ => ?_
      refine .bind_expect trivial ends fun close last ends _ number₃ => ?_
      refine .pure ends ⟨?_, by omega⟩
      have call : Expr.Derives 9 _ (.call _ name _ _ _) := .call derive
      simpa [Expr.bare, ExprNote.bare, trees, same] using call
  · exact .pure ends ⟨.name, number⟩

theorem ExprsReadAt.arguments_succ (ih : ExprsReadAt fuel) {before : List Expr}
    (ends : EndsInEof state.ahead) :
    Reads (Parser.arguments (fuel + 1) before) state (fuel + 1 < 16 * state.left + 13)
      fun tokens args last => ∃ parts : List (List TokenKind × Expr), parts ≠ [] ∧
        (∀ part ∈ parts, Expr.Derives 0 part.1 part.2) ∧ tokens = separated (parts.map (·.1)) ∧
        args.map Expr.bare = before.reverse.map Expr.bare ++ parts.map (·.2) ∧
        last.nextFunction = state.nextFunction := by
  unfold Parser.arguments
  refine ((ih.expression ends).shorter (by omega)).bind
    fun tokens arg after ends left ⟨derives, number⟩ => ?_
  refine .bind_eat trivial ends (fun after' ends left' number' => ?_) ?_
  · refine (ih.arguments ends).mono (by omega)
      fun more args last ⟨parts, nonempty, derive, same, trees, number''⟩ => ?_
    refine ⟨(tokens, arg.bare) :: parts, List.cons_ne_nil _ _, ?_, ?_, ?_, by omega⟩
    · exact List.forall_mem_cons.mpr ⟨derives, derive⟩
    · obtain ⟨part, parts, rfl⟩ := List.exists_cons_of_ne_nil nonempty
      simp [same, separated]
    · simp [trees]
  · refine .pure ends ⟨[(tokens, arg.bare)], List.cons_ne_nil _ _, by simpa using derives, ?_, ?_,
      number⟩
    · simp [separated]
    · simp

theorem exprsReadAt : ∀ fuel, ExprsReadAt fuel
  | 0 => by
    constructor <;> intros <;> apply Reads.outOfFuel <;> omega
  | fuel + 1 => by
    have ih := exprsReadAt fuel
    exact ⟨ih.expression_succ, ih.operators_succ, ih.operatorTail_succ, ih.power_succ, ih.unary_succ,
      ih.primary_succ, ih.nameOrCall_succ, ih.arguments_succ⟩

end Exprs

section Parts

variable {fuel : Nat} {state : ParseState} {short : Prop}

theorem typeName_reads (ends : EndsInEof state.ahead) :
    Reads typeName state short fun tokens typeName last =>
      tokens = [.ident typeName.name] ∧ last.nextFunction = state.nextFunction := by
  unfold typeName
  refine .bind_cursor ?_
  dsimp only
  split
  · rename_i name current
    exact .bind_advance ends current nofun fun after ends _ number => .pure ends ⟨rfl, number⟩
  · exact .fail

theorem typeAfterColon_reads (ends : EndsInEof state.ahead) :
    Reads typeAfterColon state short fun tokens typeName last =>
      tokens = typeTokens (typeName.map (·.name)) ∧ last.nextFunction = state.nextFunction := by
  unfold typeAfterColon
  refine .bind_eat trivial ends (fun after ends _ number => ?_) (.pure ends ⟨rfl, rfl⟩)
  refine (typeName_reads ends).bind fun tokens typeName after' ends _ ⟨shape, number'⟩ => ?_
  exact .pure ends ⟨by simp [shape, typeTokens], number'.trans number⟩

theorem Option.map_bare (typeName : Option TypeName) :
    typeName.map TypeName.bare = (typeName.map (·.name)).map TypeName.ofName := by
  cases typeName <;> rfl

theorem varDecl_reads (ends : EndsInEof state.ahead) :
    Reads (varDecl fuel) state (fuel < 16 * state.left) fun tokens decl last =>
      VarDecl.Derives tokens decl.bare ∧ last.nextFunction = state.nextFunction := by
  unfold varDecl
  refine .bind_ident ends fun name span after ends left number => ?_
  refine (typeAfterColon_reads ends).bind fun colon typeName after ends left' ⟨shape, number'⟩ => ?_
  refine .bind_cursor ?_
  dsimp only
  refine .bind_eat trivial ends (fun after ends left'' number'' => ?_) .fail
  refine (((exprsReadAt fuel).expression ends).shorter (by omega)).bind
    fun tokens init after ends _ ⟨derives, number₃⟩ => ?_
  refine .pure ends ⟨?_, by omega⟩
  rw [List.append_nil, shape, VarDecl.bare, Option.map_bare]
  exact .intro derives

theorem condition_reads (ends : EndsInEof state.ahead) :
    Reads (condition fuel) state (fuel < 16 * state.left) fun tokens e last =>
      ∃ inner, tokens = .mark .leftParen :: inner ++ [.mark .rightParen] ∧
        Expr.Derives 0 inner e.bare ∧ last.nextFunction = state.nextFunction := by
  unfold condition
  refine .bind_expect trivial ends fun _ after ends left number => ?_
  refine (((exprsReadAt fuel).expression ends).shorter (by omega)).bind
    fun tokens e after ends left' ⟨derives, number'⟩ => ?_
  refine .bind_expect trivial ends fun _ after ends _ number'' => ?_
  exact .pure ends ⟨tokens, rfl, derives, by omega⟩

theorem parameters_reads : ∀ (fuel : Nat) {state : ParseState} (before : List Param),
    EndsInEof state.ahead → Reads (parameters fuel before) state (fuel < 16 * state.left + 1)
      fun tokens params last => ∃ parts : List (String × String), parts ≠ [] ∧
        tokens = separated (parts.map paramTokens) ∧
        params.map Param.bare = before.reverse.map Param.bare ++ parts.map Param.ofNames ∧
        last.nextFunction = state.nextFunction
  | 0, _, _, _ => by
    apply Reads.outOfFuel
    omega
  | fuel + 1, state, before, ends => by
    unfold parameters
    refine .bind_ident ends fun name span after ends left number => ?_
    refine .bind_expect trivial ends fun _ after ends left' number' => ?_
    refine (typeName_reads ends).bind fun type typeName after ends left'' ⟨shape, number''⟩ => ?_
    dsimp only
    subst shape
    refine .bind_eat trivial ends (fun after ends left₃ number₃ => ?_) ?_
    · refine (parameters_reads fuel _ ends).mono (by omega)
        fun more params last ⟨parts, nonempty, same, trees, number₄⟩ => ?_
      refine ⟨(name, typeName.name) :: parts, List.cons_ne_nil _ _, ?_, ?_, by omega⟩
      · obtain ⟨part, parts, rfl⟩ := List.exists_cons_of_ne_nil nonempty
        simp [same, separated, paramTokens]
      · simp [trees, Param.bare, Param.ofNames, TypeName.bare, TypeName.ofName]
    · refine .pure ends ⟨[(name, typeName.name)], List.cons_ne_nil _ _, rfl, ?_, by omega⟩
      simp [Param.bare, Param.ofNames, TypeName.bare, TypeName.ofName]

theorem forInit_reads (ends : EndsInEof state.ahead) :
    Reads (forInit fuel) state (fuel < 16 * state.left + 12) fun tokens init last =>
      ForInit.Derives tokens init.bare ∧ last.nextFunction = state.nextFunction := by
  unfold forInit
  refine .bind_eat trivial ends (fun after ends left number => ?_) ?_
  · refine ((varDecl_reads ends).shorter (by omega)).bind
      fun tokens decl after ends _ ⟨derives, number'⟩ => ?_
    refine .pure ends ⟨?_, by omega⟩
    rw [List.append_nil]
    exact .letVar derives
  · refine ((exprsReadAt fuel).expression ends).bind
      fun tokens e after ends left ⟨derives, number⟩ => ?_
    split
    · rename_i isAssign
      refine .pure ends ⟨?_, number⟩
      rw [List.append_nil]
      exact .assign derives (e.isAssign_bare.trans isAssign)
    · exact .fail

end Parts

/-- The functions have the numbers from the first up to, but not including, the last. -/
def Numbered (first last : Nat) (functions : List FunctionDecl) : Prop :=
  functions.map FunctionDecl.id = List.range' first functions.length ∧
    last = first + functions.length

theorem Numbered.append {first mid last : Nat} {functions later : List FunctionDecl}
    (numbered : Numbered first mid functions) (laterNumbered : Numbered mid last later) :
    Numbered first last (functions ++ later) := by
  obtain ⟨ids, rfl⟩ := numbered
  obtain ⟨laterIds, rfl⟩ := laterNumbered
  refine ⟨?_, by simp [Nat.add_assoc]⟩
  rw [List.map_append, ids, laterIds, List.length_append, List.range'_append_1]

theorem Numbered.none {first last : Nat} (same : last = first) : Numbered first last [] :=
  ⟨rfl, same⟩

theorem Numbered.congr {first last first' last' : Nat} {functions : List FunctionDecl}
    (numbered : Numbered first last functions) (atFirst : first = first') (atLast : last' = last) :
    Numbered first' last' functions := by
  subst atFirst atLast
  exact numbered

/-- The tokens make the statements, one after the other. -/
def StmtsDerive (tokens : List TokenKind) (statements : List Stmt) : Prop :=
  ∃ parts : List (List TokenKind × Stmt), (∀ part ∈ parts, Stmt.Derives part.1 part.2) ∧
    tokens = parts.flatMap (·.1) ∧ statements.map Stmt.bare = parts.map (·.2)

theorem StmtsDerive.nil : StmtsDerive [] [] :=
  ⟨[], fun _ member => (List.not_mem_nil member).elim, rfl, rfl⟩

theorem StmtsDerive.cons {tokens more : List TokenKind} {s : Stmt} {rest : List Stmt}
    (derives : Stmt.Derives tokens s.bare) (derive : StmtsDerive more rest) :
    StmtsDerive (tokens ++ more) (s :: rest) := by
  obtain ⟨parts, each, rfl, trees⟩ := derive
  exact ⟨(tokens, s.bare) :: parts, List.forall_mem_cons.mpr ⟨derives, each⟩, rfl, by simp [trees]⟩

/-- What the parsers of statements read with the given fuel. -/
structure StmtsReadAt (fuel : Nat) : Prop where
  statement {state} : EndsInEof state.ahead →
    Reads (statement fuel) state (fuel < 16 * state.left + 13) fun tokens s last =>
      Stmt.Derives tokens s.bare ∧ Numbered state.nextFunction last.nextFunction s.functions
  block {state} : EndsInEof state.ahead →
    Reads (block fuel) state (fuel < 16 * state.left + 1) fun tokens body last =>
      Block.Derives tokens body.bare ∧ Numbered state.nextFunction last.nextFunction body.functions
  statements {state before} : EndsInEof state.ahead →
    Reads (statements fuel before) state (fuel < 16 * state.left + 14) fun tokens ss last =>
      ∃ later, ss = before.reverse ++ later ∧ StmtsDerive tokens later ∧
        Numbered state.nextFunction last.nextFunction (Stmt.allFunctions later)
  function {state} : EndsInEof state.ahead →
    Reads (function fuel) state (fuel < 16 * state.left + 1) fun tokens decl last =>
      FunctionDecl.Derives tokens decl.bare ∧
        Numbered state.nextFunction last.nextFunction decl.functions
  elseBranch {state} : EndsInEof state.ahead →
    Reads (elseBranch fuel) state (fuel < 16 * state.left + 1) fun tokens body last =>
      ElseDerives tokens (body.map Block.bare) ∧
        Numbered state.nextFunction last.nextFunction ((body.map Block.functions).getD [])

section Stmts

variable {fuel : Nat} {state : ParseState}

theorem StmtsReadAt.statement_succ (ih : StmtsReadAt fuel) (ends : EndsInEof state.ahead) :
    Reads (Parser.statement (fuel + 1)) state (fuel + 1 < 16 * state.left + 13)
      fun tokens s last =>
        Stmt.Derives tokens s.bare ∧ Numbered state.nextFunction last.nextFunction s.functions := by
  have expression := @(exprsReadAt fuel).expression
  unfold Parser.statement
  refine .bind_cursor (.bind_cursor ?_)
  dsimp only
  split
  · rename_i current
    refine .bind_advance ends current (by simp) fun after ends left number => ?_
    refine ((varDecl_reads ends).shorter (by omega)).bind
      fun tokens decl after ends left' read => ?_
    obtain ⟨derives, number'⟩ := read
    refine .bind_expect trivial ends fun _ after ends _ number'' => .bind_covered ?_
    exact .pure ends ⟨by simpa [Stmt.bare] using Stmt.Derives.letVar derives, .none (by omega)⟩
  · refine ((ih.function ends).shorter (by omega)).bind
      fun tokens decl after ends _ read => .bind_covered ?_
    obtain ⟨derives, numbered⟩ := read
    exact .pure ends ⟨by simpa [Stmt.bare] using Stmt.Derives.function derives, numbered⟩
  · rename_i current
    refine .bind_advance ends current (by simp) fun after ends left number => ?_
    refine ((condition_reads ends).shorter (by omega)).bind
      fun _ test after ends left' read => ?_
    obtain ⟨inner, shape, derives, number'⟩ := read
    refine ((ih.block ends).shorter (by omega)).bind
      fun tokens body after ends left'' read => ?_
    obtain ⟨bodyDerives, numbered⟩ := read
    refine ((ih.elseBranch ends).shorter (by omega)).bind
      fun more elseBody after ends _ read => .bind_covered ?_
    obtain ⟨elseDerives, elseNumbered⟩ := read
    refine .pure ends ⟨?_, ?_⟩
    · subst shape
      simpa using Stmt.Derives.ifElse derives bodyDerives elseDerives
    · rw [Stmt.functions_ifElse]
      exact (numbered.append elseNumbered).congr (by omega) rfl
  · rename_i current
    refine .bind_advance ends current (by simp) fun after ends left number => ?_
    refine ((condition_reads ends).shorter (by omega)).bind
      fun _ test after ends left' read => ?_
    obtain ⟨inner, shape, derives, number'⟩ := read
    refine ((ih.block ends).shorter (by omega)).bind
      fun tokens body after ends _ read => .bind_covered ?_
    obtain ⟨bodyDerives, numbered⟩ := read
    refine .pure ends ⟨?_, numbered.congr (by omega) rfl⟩
    subst shape
    simpa [Stmt.bare] using Stmt.Derives.whileLoop derives bodyDerives
  · rename_i current
    refine .bind_advance ends current (by simp) fun after ends left number => ?_
    refine .bind_expect trivial ends fun _ after ends left' number' => ?_
    refine ((forInit_reads ends).shorter (by omega)).bind
      fun header init after ends left₃ read => ?_
    obtain ⟨initDerives, number₃⟩ := read
    refine .bind_expect trivial ends fun _ after ends left₄ number₄ => ?_
    refine ((expression ends).shorter (by omega)).bind
      fun condition test after ends left₅ read => ?_
    obtain ⟨testDerives, number₅⟩ := read
    refine .bind_expect trivial ends fun _ after ends left₆ number₆ => ?_
    refine ((expression ends).shorter (by omega)).bind
      fun stepTokens step after ends left₇ read => ?_
    obtain ⟨stepDerives, number₇⟩ := read
    refine .bind_expect trivial ends fun _ after ends left₈ number₈ => ?_
    refine ((ih.block ends).shorter (by omega)).bind
      fun tokens body after ends _ read => .bind_covered ?_
    obtain ⟨bodyDerives, numbered⟩ := read
    refine .pure ends ⟨?_, numbered.congr (by omega) rfl⟩
    simpa [Stmt.bare] using Stmt.Derives.forLoop initDerives testDerives stepDerives bodyDerives
  · rename_i current
    refine .bind_advance ends current (by simp) fun after ends left number => ?_
    refine .bind_expect trivial ends fun _ after ends _ number' => .bind_covered ?_
    exact .pure ends ⟨.breakLoop, .none (by omega)⟩
  · rename_i current
    refine .bind_advance ends current (by simp) fun after ends left number => ?_
    refine .bind_expect trivial ends fun _ after ends _ number' => .bind_covered ?_
    exact .pure ends ⟨.continueLoop, .none (by omega)⟩
  · rename_i current
    refine .bind_advance ends current (by simp) fun after ends left number => .bind_cursor ?_
    split
    · refine .bind_pure (.bind_expect trivial ends fun _ after ends _ number' => .bind_covered ?_)
      exact .pure ends ⟨.returnNone, .none (by omega)⟩
    · rw [bind_map]
      refine ((expression ends).shorter (by omega)).bind
        fun tokens e after ends left' read => ?_
      obtain ⟨derives, number'⟩ := read
      refine .bind_expect trivial ends fun _ after ends _ number'' => .bind_covered ?_
      exact .pure ends ⟨by simpa [Stmt.bare] using Stmt.Derives.returnSome derives, .none (by omega)⟩
  · refine ((ih.block ends).shorter (by omega)).bind
      fun tokens body after ends _ read => .bind_covered ?_
    obtain ⟨derives, numbered⟩ := read
    exact .pure ends ⟨by simpa [Stmt.bare] using Stmt.Derives.block derives, numbered⟩
  · refine ((expression ends).shorter (by omega)).bind
      fun tokens e after ends left read => ?_
    obtain ⟨derives, number⟩ := read
    refine .bind_expect trivial ends fun _ after ends _ number' => .bind_covered ?_
    exact .pure ends ⟨by simpa [Stmt.bare] using Stmt.Derives.expr derives, .none (by omega)⟩

theorem StmtsReadAt.block_succ (ih : StmtsReadAt fuel) (ends : EndsInEof state.ahead) :
    Reads (Parser.block (fuel + 1)) state (fuel + 1 < 16 * state.left + 1) fun tokens body last =>
      Block.Derives tokens body.bare ∧
        Numbered state.nextFunction last.nextFunction body.functions := by
  unfold Parser.block
  refine .bind_expect trivial ends fun _ after ends left number => ?_
  refine ((ih.statements ends).shorter (by omega)).bind
    fun tokens ss after ends left' ⟨later, shape, ⟨parts, each, same, trees⟩, numbered⟩ => ?_
  refine .bind_expect trivial ends fun _ after ends _ number' => ?_
  obtain rfl : ss = later := shape
  refine .pure ends ⟨?_, numbered.congr (by omega) number'⟩
  rw [same, Block.bare, Stmt.allBare_eq_map, trees]
  exact .intro each

theorem StmtsReadAt.statements_succ (ih : StmtsReadAt fuel) {before : List Stmt}
    (ends : EndsInEof state.ahead) :
    Reads (Parser.statements (fuel + 1) before) state (fuel + 1 < 16 * state.left + 14)
      fun tokens ss last => ∃ later, ss = before.reverse ++ later ∧ StmtsDerive tokens later ∧
        Numbered state.nextFunction last.nextFunction (Stmt.allFunctions later) := by
  unfold Parser.statements
  refine .bind_cursor ?_
  split
  · exact .pure ends ⟨[], (List.append_nil _).symm, .nil, .none rfl⟩
  · refine .bind_cursor ?_
    split
    · exact .bind_cursor .fail
    · refine ((ih.statement ends).shorter (by omega)).bind
        fun tokens s after ends left ⟨derives, numbered⟩ => ?_
      have := derives.length_pos
      refine (ih.statements ends).mono (by omega)
        fun more ss last ⟨later, shape, derive, laterNumbered⟩ => ?_
      exact ⟨s :: later, by simp [shape], derive.cons derives, numbered.append laterNumbered⟩

/-- The part of a function after its parameters. -/
theorem StmtsReadAt.functionRest (ih : StmtsReadAt fuel) (ends : EndsInEof state.ahead)
    {start : Token} {name : String} {nameSpan : Span} {params : List Param}
    {parts : List (String × String)} (trees : params.map Param.bare = parts.map Param.ofNames) :
    Reads (do
        let _ ← expect (.mark .rightParen)
        let resultName ← typeAfterColon
        let body ← Parser.block fuel
        let id ← freshFunction
        return ⟨id, name, nameSpan, params, resultName, body, start.span.merge body.span, .unset⟩ :
          Parser FunctionDecl) state (fuel < 16 * state.left) fun tokens decl last =>
      FunctionDecl.Derives (.keyword .fnK :: .ident name :: .mark .leftParen ::
        separated (parts.map paramTokens) ++ tokens) decl.bare ∧
      Numbered state.nextFunction last.nextFunction decl.functions := by
  refine .bind_expect trivial ends fun _ after ends left number => ?_
  refine (typeAfterColon_reads ends).bind
    fun colon resultName after ends left' ⟨shape, number'⟩ => ?_
  refine ((ih.block ends).shorter (by omega)).bind
    fun tokens body after ends _ ⟨derives, numbered⟩ => ?_
  refine ⟨[], rfl, ends, ?_, ?_⟩
  · subst shape
    have whole : FunctionDecl.Derives _ ⟨0, name, Span.nowhere, parts.map .ofNames,
        (resultName.map (·.name)).map .ofName, body.bare, Span.nowhere, .unset⟩ := .intro derives
    rw [FunctionDecl.bare, trees, Option.map_bare]
    simpa using whole
  · exact (numbered.append ⟨rfl, rfl⟩).congr (by omega) rfl

theorem StmtsReadAt.function_succ (ih : StmtsReadAt fuel) (ends : EndsInEof state.ahead) :
    Reads (Parser.function (fuel + 1)) state (fuel + 1 < 16 * state.left + 1)
      fun tokens decl last => FunctionDecl.Derives tokens decl.bare ∧
        Numbered state.nextFunction last.nextFunction decl.functions := by
  unfold Parser.function
  refine .bind_expect trivial ends fun start after ends left number => ?_
  refine .bind_ident ends fun name nameSpan after ends left' number' => ?_
  refine .bind_expect trivial ends fun _ after ends left'' number'' => .bind_cursor ?_
  dsimp only
  split
  · have noParams :
        ([] : List Param).map Param.bare = ([] : List (String × String)).map .ofNames := rfl
    refine .bind_pure ((ih.functionRest ends noParams).mono (by omega)
      fun tokens decl last ⟨derives, numbered⟩ => ?_)
    exact ⟨derives, numbered.congr (by omega) rfl⟩
  · refine ((parameters_reads fuel [] ends).shorter (by omega)).bind
      fun tokens params after ends left₃ ⟨parts, _, shape, trees, number₃⟩ => ?_
    refine (ih.functionRest ends trees).mono (by omega)
      fun more decl last ⟨derives, numbered⟩ => ?_
    subst shape
    exact ⟨derives, numbered.congr (by omega) rfl⟩

/-- After `else` an `if` is read as a statement, and is one. -/
theorem StmtsReadAt.elseIf (ih : StmtsReadAt fuel) (ends : EndsInEof state.ahead)
    (current : state.cursor.check (.keyword .ifK) = true) :
    Reads (Parser.statement fuel) state (fuel < 16 * state.left + 13) fun tokens s last =>
      (∃ test thenBranch elseBranch,
        s.bare = .ifElse Span.nowhere test thenBranch elseBranch ∧ Stmt.Derives tokens s.bare) ∧
      Numbered state.nextFunction last.nextFunction s.functions := by
  refine (ih.statement ends).shape.mono (fun short => short)
    fun tokens s last ⟨⟨derives, numbered⟩, shape⟩ => ⟨?_, numbered⟩
  obtain ⟨kind, rest, rfl, -⟩ := derives.begins
  have fixed : TokenKind.IsFixed (.keyword .ifK) := trivial
  obtain rfl : kind = .keyword .ifK := (ParseState.check_iff shape fixed).mp current
  obtain ⟨test, thenBranch, elseBranch, same⟩ := derives.eq_ifElse rfl
  exact ⟨test, thenBranch, elseBranch, same, derives⟩

theorem StmtsReadAt.elseBranch_succ (ih : StmtsReadAt fuel) (ends : EndsInEof state.ahead) :
    Reads (Parser.elseBranch (fuel + 1)) state (fuel + 1 < 16 * state.left + 1)
      fun tokens body last => ElseDerives tokens (body.map Block.bare) ∧
        Numbered state.nextFunction last.nextFunction ((body.map Block.functions).getD []) := by
  unfold Parser.elseBranch
  refine .bind_eat trivial ends (fun after ends left number => .bind_cursor ?_) ?_
  · split
    · rename_i current
      refine ((ih.elseIf ends current).shorter (by omega)).bind
        fun tokens s after ends _ read => ?_
      obtain ⟨⟨test, thenBranch, elseBranch, same, derives⟩, numbered⟩ := read
      refine .pure ends ⟨?_, (numbered.append (.none rfl)).congr number rfl⟩
      rw [same] at derives
      simpa [Block.bare, same] using ElseDerives.elseIf derives
    · refine ((ih.block ends).shorter (by omega)).bind
        fun tokens body after ends _ read => ?_
      obtain ⟨derives, numbered⟩ := read
      refine .pure ends ⟨?_, numbered.congr number rfl⟩
      rw [List.append_nil]
      exact .block derives
  · exact .pure ends ⟨.none, .none rfl⟩

theorem stmtsReadAt : ∀ fuel, StmtsReadAt fuel
  | 0 => by
    constructor <;> intros <;> apply Reads.outOfFuel <;> omega
  | fuel + 1 => by
    have ih := stmtsReadAt fuel
    exact ⟨ih.statement_succ, ih.block_succ, ih.statements_succ, ih.function_succ,
      ih.elseBranch_succ⟩

end Stmts

theorem programStatements_reads : ∀ (fuel : Nat) {state : ParseState} (before : List Stmt),
    EndsInEof state.ahead →
    Reads (programStatements fuel before) state (fuel < 16 * state.left + 14)
      fun tokens ss last => ∃ later, ss = before.reverse ++ later ∧ StmtsDerive tokens later ∧
        last.ahead = [.eof] ∧
        Numbered state.nextFunction last.nextFunction (Stmt.allFunctions later)
  | 0, _, _, _ => by
    apply Reads.outOfFuel
    omega
  | fuel + 1, state, before, ends => by
    unfold programStatements
    refine .bind_cursor ?_
    split
    · rename_i atEnd
      obtain ⟨kind, rest, shape⟩ := ends.eq_cons
      obtain rfl : kind = .eof := by
        rw [Cursor.isAtEnd, TokenKind.sameKind_eof, ParseState.currentKind_eq shape] at atEnd
        exact atEnd
      have last : state.ahead = [.eof] := by
        rw [shape] at ends ⊢
        rw [ends.of_eof]
      exact .pure ends ⟨[], (List.append_nil _).symm, .nil, last, .none rfl⟩
    · refine (((stmtsReadAt fuel).statement ends).shorter (by omega)).bind
        fun tokens s after ends left ⟨derives, numbered⟩ => ?_
      have := derives.length_pos
      refine (programStatements_reads fuel _ ends).mono (by omega)
        fun more ss last ⟨later, shape, derive, atEnd, laterNumbered⟩ => ?_
      exact ⟨s :: later, by simp [shape], derive.cons derives, atEnd,
        numbered.append laterNumbered⟩

theorem program_reads (fuel : Nat) {state : ParseState} (ends : EndsInEof state.ahead) :
    Reads (program fuel) state (fuel < 16 * state.left + 14) fun tokens p last =>
      StmtsDerive tokens p.statements ∧ last.ahead = [.eof] ∧
        Numbered state.nextFunction last.nextFunction p.functions := by
  unfold program
  refine .bind_cursor ?_
  refine (programStatements_reads fuel [] ends).bind
    fun tokens ss after ends _ ⟨later, shape, derive, atEnd, numbered⟩ => .bind_cursor ?_
  obtain rfl : ss = later := shape
  exact .pure ends ⟨by simpa using derive, atEnd, numbered⟩

end Parser

/-- The fuel lasts, and a program that is read derives from its tokens. Its functions are numbered in
the order in which their bodies are closed. -/
theorem parse?_reads {tokens : List Token} (ends : EndsInEof (tokens.map Token.kind)) :
    ∃ result, parse? tokens = some result ∧ ∀ program, result = .ok program →
      program.bare.Derives (tokens.map Token.kind) ∧
        program.functionIds = List.range program.functions.length := by
  have reads := (Parser.program_reads (parseFuel tokens)
    (show EndsInEof (ParseState.ahead ⟨Cursor.ofTokens tokens, 0⟩) from ends)).shape
  unfold Parser.Reads at reads
  unfold parse?
  generalize Parser.program _ _ = result at reads ⊢
  cases result with
  | done program after =>
    obtain ⟨read, -, -, ⟨⟨parts, each, rfl, trees⟩, atEnd, numbered⟩, shape⟩ := reads
    refine ⟨_, rfl, fun program same => ?_⟩
    cases same
    refine ⟨⟨parts, each, ?_, ?_⟩, ?_⟩
    · rw [← atEnd]
      exact shape
    · rw [← trees]
      rfl
    · rw [List.range_eq_range']
      exact numbered.1
  | failed e => exact ⟨_, rfl, nofun⟩
  | outOfFuel =>
    have fuel : parseFuel tokens = 16 * (tokens.length + 2) := rfl
    have left : (ParseState.mk (Cursor.ofTokens tokens) 0).left = tokens.length :=
      List.length_map ..
    omega

end Lu
