import Lu.Check.Error
import Lu.Tree.Basic

namespace Lu

/-!
Rules of placement: jumps stand where there is something to leave, assignments go to variables,
and calls have as many arguments as the function has parameters.
-/

/-- What is around a statement. A function hides the loops around it. -/
structure Surroundings where
  inLoop : Bool := false
  inFunction : Bool := false
deriving DecidableEq, Repr

namespace Expr

def checkPlacement : Expr → Check Unit
  | .literal .. | .variable .. => return
  | .assign _ target value => do
    target.checkPlacement
    value.checkPlacement
    if target.isVariable then return
    Check.fail .assignmentTarget target.span
  | .binary _ _ left right => do
    left.checkPlacement
    right.checkPlacement
  | .unary _ _ operand => operand.checkPlacement
  | .call note _ _ args callee => do
    checkAll args
    let callee ← Check.lift callee.get
    if args.length = callee.arity then return
    Check.fail (.wrongArity callee.name callee.arity args.length) note.span
where
  checkAll : List Expr → Check Unit
    | [] => return
    | e :: rest => do
      e.checkPlacement
      checkAll rest

end Expr

def ForInit.checkPlacement : ForInit → Check Unit
  | .letVar decl => decl.init.checkPlacement
  | .assign e => e.checkPlacement

mutual

def Stmt.checkPlacement (around : Surroundings) : Stmt → Check Unit
  | .expr _ e => e.checkPlacement
  | .letVar _ decl => decl.init.checkPlacement
  | .function _ decl => decl.checkPlacement
  | .block _ body => body.checkPlacement around
  | .ifElse _ condition thenBranch none => do
    condition.checkPlacement
    thenBranch.checkPlacement around
  | .ifElse _ condition thenBranch (some elseBranch) => do
    condition.checkPlacement
    thenBranch.checkPlacement around
    elseBranch.checkPlacement around
  | .whileLoop _ condition body => do
    condition.checkPlacement
    body.checkPlacement { around with inLoop := true }
  | .forLoop _ init condition step body => do
    init.checkPlacement
    condition.checkPlacement
    step.checkPlacement
    body.checkPlacement { around with inLoop := true }
  | .breakLoop span =>
    if around.inLoop then return else Check.fail (.outsideLoop "break") span
  | .continueLoop span =>
    if around.inLoop then return else Check.fail (.outsideLoop "continue") span
  | .returnValue span none =>
    if around.inFunction then return else Check.fail .outsideFunction span
  | .returnValue span (some value) => do
    value.checkPlacement
    if around.inFunction then return else Check.fail .outsideFunction span

def Stmt.checkPlacements (around : Surroundings) : List Stmt → Check Unit
  | [] => return
  | s :: rest => do
    s.checkPlacement around
    Stmt.checkPlacements around rest

def Block.checkPlacement (around : Surroundings) : Block → Check Unit
  | ⟨_, statements⟩ => Stmt.checkPlacements around statements

def FunctionDecl.checkPlacement : FunctionDecl → Check Unit
  | ⟨_, _, _, _, _, body, _, _⟩ => body.checkPlacement { inFunction := true }

end

def Program.checkPlacement (program : Program) : Check Unit :=
  Stmt.checkPlacements {} program.statements

end Lu
