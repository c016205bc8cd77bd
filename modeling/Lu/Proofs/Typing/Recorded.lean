import Lu.Proofs.Check.Once
import Lu.Proofs.Typing.Plain

namespace Lu

/-!
The search for types comes to each slot once: with its record of filled slots it does what it does
without one.
-/

open Filling

theorem ExprNote.fillType_plain (note : ExprNote) (ty : Ty) {index : Nat} :
    Fills (ahead index) (note.fillType ty) (note.setType ty) :=
  .then_pure (.fill mem_ahead_self) _

mutual

theorem Expr.fillTypes_plain {types : VariableTypes} :
    ∀ e : Expr, Fills (ahead 0) (e.fillTypes types) (e.resolveTypes types)
  | .literal note value => .then_pure (note.fillType_plain _) _
  | .variable note _ _ => .lift_bind fun _ _ => .then_pure (note.fillType_plain _) _
  | .assign note target value =>
    .part target.fillTypes_plain fun _ _ => .part value.fillTypes_plain fun _ _ =>
      .then_pure (note.fillType_plain _) _
  | .binary note op left right => by
    refine .part left.fillTypes_plain fun left _ => .part right.fillTypes_plain fun right _ => ?_
    refine .lift_bind fun leftType _ => .lift_bind fun rightType _ => ?_
    cases op.resultType? leftType rightType with
    | some ty => exact .then_pure (note.fillType_plain ty) _
    | none => exact .lift _
  | .unary note op operand => by
    refine .part operand.fillTypes_plain fun operand _ => .lift_bind fun operandType _ => ?_
    cases op.resultType? operandType with
    | some ty => exact .then_pure (note.fillType_plain ty) _
    | none => exact .lift _
  | .call note _ _ args _ =>
    .part (Expr.fillTypesAll_plain args) fun _ _ => .lift_bind fun _ _ =>
      .then_pure (note.fillType_plain _) _

theorem Expr.fillTypesAll_plain {types : VariableTypes} : ∀ args : List Expr,
    Fills (ahead 0) (fillTypes.fillAll types args) (resolveTypes.resolveAll types args)
  | [] => .pure _
  | e :: rest =>
    .part e.fillTypes_plain fun _ _ => .part (Expr.fillTypesAll_plain rest) fun _ _ => .pure _

end

theorem ExprNote.fillType_stores (note : ExprNote) (ty : Ty) :
    Stores "result type" (note.fillType ty) :=
  .before (.fill note.type ty) fun _ => .pure _

theorem Expr.fillTypes_stores {types : VariableTypes} (e : Expr) :
    Stores "result type" (e.fillTypes types) := by
  cases e with
  | literal note value => exact .before (note.fillType_stores _) fun _ => .pure _
  | «variable» note name symbol =>
    exact .behind (.lift _) fun _ => .before (note.fillType_stores _) fun _ => .pure _
  | assign note target value =>
    exact .behind (.inside 0 _) fun _ => .behind (.inside 1 _) fun _ =>
      .before (note.fillType_stores _) fun _ => .pure _
  | binary note op left right =>
    refine .behind (.inside 0 _) fun left => .behind (.inside 1 _) fun right => ?_
    refine .behind (.lift _) fun leftType => .behind (.lift _) fun rightType => ?_
    cases op.resultType? leftType rightType with
    | some ty => exact .before (note.fillType_stores ty) fun _ => .pure _
    | none => exact .fail _
  | unary note op operand =>
    refine .behind (.inside 0 _) fun operand => .behind (.lift _) fun operandType => ?_
    cases op.resultType? operandType with
    | some ty => exact .before (note.fillType_stores ty) fun _ => .pure _
    | none => exact .fail _
  | call note name nameSpan args callee =>
    exact .behind (.inside 0 _) fun _ => .behind (.lift _) fun _ =>
      .before (note.fillType_stores _) fun _ => .pure _

/-- A step that comes to an expression a second time does not get over it. -/
theorem Expr.fillTypes_not_twice {types later : VariableTypes} {e e' e'' : Expr}
    {filled after last : Filled} (run : e.fillTypes types filled = .ok (e', after)) :
    e.fillTypes later after ≠ .ok (e'', last) :=
  e.fillTypes_stores.not_twice e.fillTypes_stores run

example : Filling.start (do
      let e : Expr := .literal ⟨default, .unset⟩ (.int 0)
      let _ ← e.fillTypes []
      e.fillTypes []) = .error (.fault (.alreadySet "result type")) := rfl

theorem VarDecl.fillTypes_plain {types : VariableTypes} (decl : VarDecl) :
    Fills (ahead 0) (decl.fillTypes types) (decl.resolveTypes types) :=
  .part decl.init.fillTypes_plain fun _ _ => .lift_bind fun _ _ => .lift_bind fun _ _ =>
    .then_pure (.fill mem_ahead_self) _

theorem ForInit.fillTypes_plain {types : VariableTypes} : ∀ init : ForInit,
    Fills (ahead 0) (init.fillTypes types) (init.resolveTypes types)
  | .letVar decl => .then_pure decl.fillTypes_plain _
  | .assign e => .then_pure e.fillTypes_plain _

mutual

theorem Stmt.fillTypes_plain : ∀ (s : Stmt) {types : VariableTypes},
    Fills (ahead 0) (s.fillTypes types) (s.resolveTypes types)
  | .expr _ e, _ => .then_pure e.fillTypes_plain _
  | .letVar _ decl, _ => .then_pure decl.fillTypes_plain _
  | .function _ decl, _ => .then_pure decl.fillTypes_plain _
  | .block _ body, _ => .then_pure body.fillTypes_plain _
  | .ifElse _ condition thenBranch none, _ =>
    .part condition.fillTypes_plain fun _ _ => .part thenBranch.fillTypes_plain fun _ _ => .pure _
  | .ifElse _ condition thenBranch (some elseBranch), _ =>
    .part condition.fillTypes_plain fun _ _ => .part thenBranch.fillTypes_plain fun _ _ =>
      .part elseBranch.fillTypes_plain fun _ _ => .pure _
  | .whileLoop _ condition body, _ =>
    .part condition.fillTypes_plain fun _ _ => .part body.fillTypes_plain fun _ _ => .pure _
  | .forLoop _ init condition step body, _ =>
    .part init.fillTypes_plain fun _ _ => .part condition.fillTypes_plain fun _ _ =>
      .part step.fillTypes_plain fun _ _ => .part body.fillTypes_plain fun _ _ => .pure _
  | .breakLoop _, _ | .continueLoop _, _ | .returnValue _ none, _ => .pure _
  | .returnValue _ (some value), _ => .then_pure value.fillTypes_plain _

theorem Stmt.fillTypesAll_plain : ∀ (statements : List Stmt) {types : VariableTypes},
    Fills (ahead 0) (Stmt.fillTypesAll types statements) (Stmt.resolveTypesAll types statements)
  | [], _ => .pure _
  | s :: rest, _ =>
    .part s.fillTypes_plain fun _ _ => .part (Stmt.fillTypesAll_plain rest) fun _ _ => .pure _

theorem Block.fillTypes_plain : ∀ (body : Block) {types : VariableTypes},
    Fills (ahead 0) (body.fillTypes types) (body.resolveTypes types)
  | ⟨_, statements⟩, _ => .then_pure (Stmt.fillTypesAll_plain statements) _

theorem FunctionDecl.fillTypes_plain : ∀ (decl : FunctionDecl) {types : VariableTypes},
    Fills (ahead 0) (decl.fillTypes types) (decl.resolveTypes types)
  | ⟨_, _, _, _, _, body, _, _⟩, _ =>
    (Fills.part body.fillTypes_plain fun _ _ => .pure _).mono (by simp)

end

/-- The record of filled slots makes no difference: the search for types comes to no slot twice. -/
theorem Program.resolveTypes_eq (program : Program) :
    program.resolveTypes = (do
      let statements ← Stmt.resolveTypesAll [] program.statements
      return { program with statements }) := by
  rw [Program.resolveTypes, (Stmt.fillTypesAll_plain program.statements).start]

theorem Program.resolveTypes_eq_ok {program typed : Program} :
    program.resolveTypes = .ok typed ↔ ∃ statements,
      Stmt.resolveTypesAll [] program.statements = .ok statements ∧
        typed = { program with statements } := by
  rw [Program.resolveTypes_eq, bind_eq_ok]
  exact exists_congr fun _ => and_congr_right fun _ => pure_eq_ok.trans eq_comm

end Lu
