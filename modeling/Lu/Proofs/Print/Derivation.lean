import Lu.Proofs.Print.Tokens
import Lu.Proofs.Tree.Bare
import Lu.Proofs.Tree.Blank

namespace Lu

/-!
The tokens of a tree derive from it.
-/

theorem Value.Printable.literal {value : Value} (printable : value.Printable) :
    Literal value.token value := by
  cases value with
  | int | str => constructor
  | nil => exact .nilK
  | float | void => exact printable.elim

theorem BinaryOp.level_lt (op : BinaryOp) : op.level < 8 := by
  cases op <;> decide

theorem Expr.Derives.under {own asked : Nat} {tokens : List TokenKind} {e : Expr}
    (derives : Expr.Derives own tokens e) (looser : asked ≤ own) (most : own ≤ 9) :
    Expr.Derives asked tokens e := by
  rw [← Nat.add_sub_cancel' looser] at derives
  exact derives.loosen _ (by omega)

/-- An expression stands where a tighter one is asked for once it is in parentheses. -/
theorem Expr.Derives.atLevel {own asked : Nat} {tokens : List TokenKind} {e : Expr}
    (derives : Expr.Derives own tokens e) (most : own ≤ 9) (least : asked ≤ 9) :
    Expr.Derives asked (Lu.atLevel own asked tokens) e := by
  unfold Lu.atLevel
  split
  · exact (Expr.Derives.parens (derives.under (Nat.zero_le own) most)).under least (Nat.le_refl 9)
  · rename_i tight
    exact derives.under (Nat.le_of_not_lt tight) most

/-- An operator with its operands at the levels that they have to have. -/
theorem Expr.Derives.operator {op : BinaryOp} {left right : List TokenKind} {l r : Expr}
    (atLeft : Expr.Derives op.leftLevel left l) (atRight : Expr.Derives op.rightLevel right r) :
    Expr.Derives op.level (left ++ .mark op.mark :: right)
      (.binary ⟨Span.nowhere, .unset⟩ op l r) := by
  by_cases power : op = .pow
  · subst power
    exact .power atLeft atRight
  · rw [BinaryOp.leftLevel, if_neg power] at atLeft
    rw [BinaryOp.rightLevel, if_neg power] at atRight
    have loose : op.level < 7 := by cases op <;> first | decide | contradiction
    exact .binary rfl loose atLeft atRight

theorem BinaryOp.leftLevel_le (op : BinaryOp) : op.leftLevel ≤ 9 := by
  cases op <;> decide

theorem BinaryOp.rightLevel_le (op : BinaryOp) : op.rightLevel ≤ 9 := by
  cases op <;> decide

mutual

theorem Expr.tokens_derive : ∀ e : Expr, e.Printable → ∀ {level : Nat}, level ≤ 9 →
    Expr.Derives level (e.tokens level) e.blank.bare
  | .literal .., printable, _, least =>
    (Expr.Derives.literal (Value.Printable.literal printable)).under least (Nat.le_refl 9)
  | .variable .., _, _, least => Expr.Derives.name.under least (Nat.le_refl 9)
  | .assign _ target value, ⟨targetPrintable, valuePrintable⟩, _, least =>
    (Expr.Derives.assign (target.tokens_derive targetPrintable (by decide))
      (value.tokens_derive valuePrintable (by decide))).atLevel (by decide) least
  | .binary _ op left right, ⟨leftPrintable, rightPrintable⟩, _, least =>
    (Expr.Derives.operator (left.tokens_derive leftPrintable op.leftLevel_le)
      (right.tokens_derive rightPrintable op.rightLevel_le)).atLevel
      (Nat.le_succ_of_le (Nat.le_of_lt op.level_lt)) least
  | .unary _ op operand, printable, _, least =>
    (Expr.Derives.unary (operand.tokens_derive printable (by decide))).atLevel (by decide) least
  | .call _ name _ args _, ⟨_, printable⟩, _, least => by
    have each : ∀ arg ∈ args.map fun e => (e.tokens 0, e.blank.bare),
        Expr.Derives 0 arg.1 arg.2 :=
      List.forall_mem_map.mpr (Expr.allTokens_derive args printable)
    have call := @Expr.Derives.call name _ each
    rw [List.map_map, List.map_map] at call
    rw [Expr.tokens, Expr.allTokens_eq_map, Expr.blank, Expr.blankAll_eq_map, Expr.bare,
      Expr.bareAll_eq_map, List.map_map]
    exact call.under least (Nat.le_refl 9)

theorem Expr.allTokens_derive : ∀ args : List Expr, Expr.Printable.allPrintable args →
    ∀ e ∈ args, Expr.Derives 0 (e.tokens 0) e.blank.bare
  | [], _ => nofun
  | e :: rest, ⟨printable, restPrintable⟩ => List.forall_mem_cons.mpr
    ⟨e.tokens_derive printable (by decide), Expr.allTokens_derive rest restPrintable⟩

end

theorem VarDecl.tokens_derive {decl : VarDecl} (printable : decl.Printable) :
    VarDecl.Derives decl.tokens decl.blank.bare := by
  have derives := @VarDecl.Derives.intro decl.name _ _ (decl.typeName.map TypeName.name)
    (decl.init.tokens_derive printable.init (Nat.zero_le 9))
  rw [Option.map_map] at derives
  exact derives

theorem ForInit.tokens_derive {init : ForInit} (printable : init.Printable) :
    ForInit.Derives init.tokens init.blank.bare := by
  cases init with
  | letVar decl => exact .letVar (VarDecl.tokens_derive printable)
  | assign e =>
    refine .assign (e.tokens_derive printable.2 (Nat.zero_le 9)) ?_
    rw [Expr.isAssign_bare]
    cases e <;> exact printable.1

theorem Block.Derives.ofStatements {statements : List Stmt}
    (each : ∀ s ∈ statements, Stmt.Derives s.tokens s.blank.bare) (span : Span) :
    Block.Derives (braced (Stmt.allTokens statements)) (Block.mk span statements).blank.bare := by
  have parts : ∀ part ∈ statements.map fun s => (s.tokens, s.blank.bare),
      Stmt.Derives part.1 part.2 := List.forall_mem_map.mpr each
  have block := Block.Derives.intro parts
  rw [List.flatMap_map, List.map_map] at block
  rw [Stmt.allTokens_eq_flatMap, Block.blank, Block.bare, Stmt.allBlank_eq_map,
    Stmt.allBare_eq_map, List.map_map]
  exact block

theorem ElseDerives.ofStatements {statements : List Stmt}
    (each : ∀ s ∈ statements, Stmt.Derives s.tokens s.blank.bare)
    (single : isElseIf statements = true) (span : Span) :
    ElseDerives (.keyword .elseK :: Stmt.allTokens statements)
      (some (Block.mk span statements).blank.bare) := by
  obtain ⟨place, condition, thenBranch, elseBranch, rfl⟩ := isElseIf_iff.mp single
  have whole := each _ (List.mem_singleton_self _)
  rw [Stmt.blank_ifElse, Stmt.bare_ifElse] at whole
  rw [Stmt.allTokens, Stmt.allTokens, List.append_nil, Block.blank, Stmt.allBlank, Stmt.allBlank,
    Block.bare, Stmt.allBare, Stmt.allBare, Stmt.blank_ifElse, Stmt.bare_ifElse]
  exact .elseIf whole

mutual

theorem Stmt.tokens_derive : ∀ s : Stmt, s.Printable → Stmt.Derives s.tokens s.blank.bare
  | .expr _ e, printable => .expr (e.tokens_derive printable (Nat.zero_le 9))
  | .letVar _ decl, printable => .letVar (VarDecl.tokens_derive printable)
  | .function _ decl, printable => .function (decl.tokens_derive printable)
  | .block _ body, printable => .block (body.tokens_derive printable)
  | .ifElse _ condition thenBranch none, ⟨conditionPrintable, thenPrintable⟩ =>
    .ifElse (condition.tokens_derive conditionPrintable (Nat.zero_le 9))
      (thenBranch.tokens_derive thenPrintable) .none
  | .ifElse _ condition thenBranch (some ⟨span, statements⟩),
      ⟨conditionPrintable, thenPrintable, elsePrintable⟩ => by
    refine .ifElse (condition.tokens_derive conditionPrintable (Nat.zero_le 9))
      (thenBranch.tokens_derive thenPrintable) ?_
    have each := Stmt.allTokens_derive statements elsePrintable
    split
    · rename_i single
      exact .ofStatements each single span
    · exact .block (.ofStatements each span)
  | .whileLoop _ condition body, ⟨conditionPrintable, bodyPrintable⟩ =>
    .whileLoop (condition.tokens_derive conditionPrintable (Nat.zero_le 9))
      (body.tokens_derive bodyPrintable)
  | .forLoop _ init condition step body,
      ⟨initPrintable, conditionPrintable, stepPrintable, bodyPrintable⟩ =>
    .forLoop (ForInit.tokens_derive initPrintable)
      (condition.tokens_derive conditionPrintable (Nat.zero_le 9))
      (step.tokens_derive stepPrintable (Nat.zero_le 9)) (body.tokens_derive bodyPrintable)
  | .breakLoop _, _ => .breakLoop
  | .continueLoop _, _ => .continueLoop
  | .returnValue _ none, _ => .returnNone
  | .returnValue _ (some value), printable =>
    .returnSome (value.tokens_derive printable (Nat.zero_le 9))

theorem Stmt.allTokens_derive : ∀ statements : List Stmt, Stmt.AllPrintable statements →
    ∀ s ∈ statements, Stmt.Derives s.tokens s.blank.bare
  | [], _ => nofun
  | s :: rest, ⟨printable, restPrintable⟩ => List.forall_mem_cons.mpr
    ⟨s.tokens_derive printable, Stmt.allTokens_derive rest restPrintable⟩

theorem Block.tokens_derive : ∀ body : Block, body.Printable →
    Block.Derives body.tokens body.blank.bare
  | ⟨span, statements⟩, printable =>
    .ofStatements (Stmt.allTokens_derive statements printable) span

theorem FunctionDecl.tokens_derive : ∀ decl : FunctionDecl, decl.Printable →
    FunctionDecl.Derives decl.tokens decl.blank.bare
  | ⟨_, name, _, params, resultName, body, _, _⟩, ⟨_, _, _, bodyPrintable⟩ => by
    have function := @FunctionDecl.Derives.intro name _ _
      (params.map fun param => (param.name, param.typeName.name))
      (resultName.map TypeName.name) (body.tokens_derive bodyPrintable)
    rw [List.map_map, List.map_map, Option.map_map] at function
    rw [FunctionDecl.blank, FunctionDecl.bare, List.map_map]
    exact function

end

/-- The tokens of a program up to the end of file make that program. -/
theorem Program.tokens_derive {program : Program} (printable : program.Printable) :
    program.blank.bare.Derives (program.tokens ++ [.eof]) := by
  refine ⟨program.statements.map fun s => (s.tokens, s.blank.bare),
    List.forall_mem_map.mpr (Stmt.allTokens_derive _ printable), ?_, ?_⟩
  · rw [Program.tokens, Stmt.allTokens_eq_flatMap, List.flatMap_map]
  · rw [Program.bare, Program.blank, List.map_map, List.map_map]
    rfl

end Lu
