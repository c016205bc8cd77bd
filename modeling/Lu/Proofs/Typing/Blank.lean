import Lu.Proofs.Tree.Blank
import Lu.Proofs.Typing.Inference
import Lu.Proofs.Typing.Recorded

namespace Lu

/-!
Finding the types writes into slots and changes nothing else.
-/

variable {types after : VariableTypes}

mutual

theorem Expr.resolveTypes_blank :
    ∀ (e : Expr) {e' : Expr}, e.resolveTypes types = .ok e' → e'.blank = e.blank
  | .literal note value, _, run => by
    obtain ⟨note', filled, run⟩ := bind_eq_ok.mp run
    cases run
    obtain ⟨-, rfl⟩ := ExprNote.setType_eq_ok.mp filled
    rfl
  | .variable note name symbol, _, run => by
    obtain ⟨_, -, run⟩ := bind_eq_ok.mp run
    obtain ⟨note', filled, run⟩ := bind_eq_ok.mp run
    cases run
    obtain ⟨-, rfl⟩ := ExprNote.setType_eq_ok.mp filled
    rfl
  | .assign note target value, _, run => by
    obtain ⟨target', atTarget, run⟩ := bind_eq_ok.mp run
    obtain ⟨value', atValue, run⟩ := bind_eq_ok.mp run
    obtain ⟨note', filled, run⟩ := bind_eq_ok.mp run
    cases run
    obtain ⟨-, rfl⟩ := ExprNote.setType_eq_ok.mp filled
    rw [blank, target.resolveTypes_blank atTarget, value.resolveTypes_blank atValue]
    rfl
  | .binary note op left right, _, run => by
    obtain ⟨left', atLeft, run⟩ := bind_eq_ok.mp run
    obtain ⟨right', atRight, run⟩ := bind_eq_ok.mp run
    obtain ⟨_, -, run⟩ := bind_eq_ok.mp run
    obtain ⟨_, -, run⟩ := bind_eq_ok.mp run
    split at run
    · obtain ⟨note', filled, run⟩ := bind_eq_ok.mp run
      cases run
      obtain ⟨-, rfl⟩ := ExprNote.setType_eq_ok.mp filled
      rw [blank, left.resolveTypes_blank atLeft, right.resolveTypes_blank atRight]
      rfl
    · cases run
  | .unary note op operand, _, run => by
    obtain ⟨operand', atOperand, run⟩ := bind_eq_ok.mp run
    obtain ⟨_, -, run⟩ := bind_eq_ok.mp run
    split at run
    · obtain ⟨note', filled, run⟩ := bind_eq_ok.mp run
      cases run
      obtain ⟨-, rfl⟩ := ExprNote.setType_eq_ok.mp filled
      rw [blank, operand.resolveTypes_blank atOperand]
      rfl
    · cases run
  | .call note name nameSpan args callee, _, run => by
    obtain ⟨args', atArgs, run⟩ := bind_eq_ok.mp run
    obtain ⟨_, -, run⟩ := bind_eq_ok.mp run
    obtain ⟨note', filled, run⟩ := bind_eq_ok.mp run
    cases run
    obtain ⟨-, rfl⟩ := ExprNote.setType_eq_ok.mp filled
    rw [blank, Expr.resolveTypesAll_blank args atArgs]
    rfl

theorem Expr.resolveTypesAll_blank : ∀ (args : List Expr) {args' : List Expr},
    Expr.resolveTypes.resolveAll types args = .ok args' →
    Expr.blank.blankAll args' = Expr.blank.blankAll args
  | [], _, run => by
    cases run
    rfl
  | e :: rest, _, run => by
    obtain ⟨e', atHead, run⟩ := bind_eq_ok.mp run
    obtain ⟨rest', atRest, run⟩ := bind_eq_ok.mp run
    cases run
    rw [blank.blankAll, e.resolveTypes_blank atHead, Expr.resolveTypesAll_blank rest atRest]
    rfl

end

theorem VarDecl.resolveTypes_blank {decl decl' : VarDecl}
    (run : decl.resolveTypes types = .ok (decl', after)) : decl'.blank = decl.blank := by
  obtain ⟨init, atInit, run⟩ := bind_eq_ok.mp run
  obtain ⟨_, -, run⟩ := bind_eq_ok.mp run
  obtain ⟨_, -, run⟩ := bind_eq_ok.mp run
  obtain ⟨_, -, run⟩ := bind_eq_ok.mp run
  cases run
  rw [blank, decl.init.resolveTypes_blank atInit]
  rfl

theorem ForInit.resolveTypes_blank {init init' : ForInit}
    (run : init.resolveTypes types = .ok (init', after)) : init'.blank = init.blank := by
  cases init with
  | letVar decl =>
    obtain ⟨⟨decl', bound⟩, atDecl, run⟩ := bind_eq_ok.mp run
    cases run
    exact congrArg ForInit.letVar (VarDecl.resolveTypes_blank atDecl)
  | assign e =>
    obtain ⟨e', atExpr, run⟩ := bind_eq_ok.mp run
    cases run
    exact congrArg ForInit.assign (e.resolveTypes_blank atExpr)

mutual

theorem Stmt.resolveTypes_blank : ∀ (s : Stmt) {types after : VariableTypes} {s' : Stmt},
    s.resolveTypes types = .ok (s', after) → s'.blank = s.blank
  | .expr span e, _, _, _, run => by
    obtain ⟨e', atExpr, run⟩ := bind_eq_ok.mp run
    cases run
    exact congrArg (Stmt.expr span) (e.resolveTypes_blank atExpr)
  | .letVar span decl, _, _, _, run => by
    obtain ⟨⟨decl', bound⟩, atDecl, run⟩ := bind_eq_ok.mp run
    cases run
    exact congrArg (Stmt.letVar span) (VarDecl.resolveTypes_blank atDecl)
  | .function span decl, _, _, _, run => by
    obtain ⟨decl', atDecl, run⟩ := bind_eq_ok.mp run
    cases run
    exact congrArg (Stmt.function span) (decl.resolveTypes_blank atDecl)
  | .block span body, _, _, _, run => by
    obtain ⟨body', atBody, run⟩ := bind_eq_ok.mp run
    cases run
    exact congrArg (Stmt.block span) (body.resolveTypes_blank atBody)
  | .ifElse span condition thenBranch none, _, _, _, run => by
    obtain ⟨condition', atCondition, run⟩ := bind_eq_ok.mp run
    obtain ⟨then', atThen, run⟩ := bind_eq_ok.mp run
    cases run
    rw [Stmt.blank, condition.resolveTypes_blank atCondition, thenBranch.resolveTypes_blank atThen]
    rfl
  | .ifElse span condition thenBranch (some elseBranch), _, _, _, run => by
    obtain ⟨condition', atCondition, run⟩ := bind_eq_ok.mp run
    obtain ⟨then', atThen, run⟩ := bind_eq_ok.mp run
    obtain ⟨else', atElse, run⟩ := bind_eq_ok.mp run
    cases run
    rw [Stmt.blank, condition.resolveTypes_blank atCondition, thenBranch.resolveTypes_blank atThen,
      elseBranch.resolveTypes_blank atElse]
    rfl
  | .whileLoop span condition body, _, _, _, run => by
    obtain ⟨condition', atCondition, run⟩ := bind_eq_ok.mp run
    obtain ⟨body', atBody, run⟩ := bind_eq_ok.mp run
    cases run
    rw [Stmt.blank, condition.resolveTypes_blank atCondition, body.resolveTypes_blank atBody]
    rfl
  | .forLoop span init condition step body, _, _, _, run => by
    obtain ⟨⟨init', inner⟩, atInit, run⟩ := bind_eq_ok.mp run
    obtain ⟨condition', atCondition, run⟩ := bind_eq_ok.mp run
    obtain ⟨step', atStep, run⟩ := bind_eq_ok.mp run
    obtain ⟨body', atBody, run⟩ := bind_eq_ok.mp run
    cases run
    rw [Stmt.blank, ForInit.resolveTypes_blank atInit, condition.resolveTypes_blank atCondition,
      step.resolveTypes_blank atStep, body.resolveTypes_blank atBody]
    rfl
  | .breakLoop _, _, _, _, run | .continueLoop _, _, _, _, run
  | .returnValue _ none, _, _, _, run => by
    cases run
    rfl
  | .returnValue span (some value), _, _, _, run => by
    obtain ⟨value', atValue, run⟩ := bind_eq_ok.mp run
    cases run
    exact congrArg (fun e => Stmt.returnValue span (some e)) (value.resolveTypes_blank atValue)

theorem Stmt.resolveTypesAll_blank :
    ∀ (statements : List Stmt) {types : VariableTypes} {statements' : List Stmt},
      Stmt.resolveTypesAll types statements = .ok statements' →
      Stmt.allBlank statements' = Stmt.allBlank statements
  | [], _, _, run => by
    cases run
    rfl
  | s :: rest, _, _, run => by
    obtain ⟨⟨s', bound⟩, atHead, run⟩ := bind_eq_ok.mp run
    obtain ⟨rest', atRest, run⟩ := bind_eq_ok.mp run
    cases run
    rw [Stmt.allBlank, s.resolveTypes_blank atHead, Stmt.resolveTypesAll_blank rest atRest]
    rfl

theorem Block.resolveTypes_blank : ∀ (body : Block) {types : VariableTypes} {body' : Block},
    body.resolveTypes types = .ok body' → body'.blank = body.blank
  | ⟨span, statements⟩, _, _, run => by
    obtain ⟨statements', atStatements, run⟩ := bind_eq_ok.mp run
    cases run
    exact congrArg (Block.mk span) (Stmt.resolveTypesAll_blank statements atStatements)

theorem FunctionDecl.resolveTypes_blank :
    ∀ (decl : FunctionDecl) {types : VariableTypes} {decl' : FunctionDecl},
      decl.resolveTypes types = .ok decl' → decl'.blank = decl.blank
  | ⟨id, name, nameSpan, params, resultName, body, span, symbol⟩, _, _, run => by
    obtain ⟨body', atBody, run⟩ := bind_eq_ok.mp run
    cases run
    rw [FunctionDecl.blank, body.resolveTypes_blank atBody]
    rfl

end

theorem Program.resolveTypes_blank {program typed : Program}
    (run : program.resolveTypes = .ok typed) : typed.blank = program.blank := by
  obtain ⟨statements, atStatements, rfl⟩ := Program.resolveTypes_eq_ok.mp run
  have same := Stmt.resolveTypesAll_blank _ atStatements
  simp only [Stmt.allBlank_eq_map] at same
  rw [blank, blank, same]

end Lu
