import Lu.Tree.Basic

namespace Lu

/-!
Trees without what the grammar says nothing about: where their parts stand, and the numbers of the
functions.
-/

def ExprNote.bare (note : ExprNote) : ExprNote := { note with span := Span.nowhere }

def Expr.bare : Expr → Expr
  | .literal note value => .literal note.bare value
  | .variable note name symbol => .variable note.bare name symbol
  | .assign note target value => .assign note.bare target.bare value.bare
  | .binary note op left right => .binary note.bare op left.bare right.bare
  | .unary note op operand => .unary note.bare op operand.bare
  | .call note name _ args callee => .call note.bare name Span.nowhere (bareAll args) callee
where
  bareAll : List Expr → List Expr
    | [] => []
    | e :: rest => e.bare :: bareAll rest

@[simp] theorem Expr.bareAll_eq_map (args : List Expr) : Expr.bare.bareAll args = args.map bare := by
  induction args with
  | nil => rfl
  | cons e rest ih => simp [bare.bareAll, ih]

/-- An expression in parentheses stands elsewhere, but is the same. -/
theorem Expr.bare_setSpan (e : Expr) (span : Span) : (e.setSpan span).bare = e.bare := by
  cases e <;> rfl

theorem Expr.isAssign_bare (e : Expr) : e.bare.isAssign = e.isAssign := by
  cases e <;> rfl

def TypeName.bare (typeName : TypeName) : TypeName := { typeName with span := Span.nowhere }

def VarDecl.bare (decl : VarDecl) : VarDecl :=
  { decl with
    nameSpan := Span.nowhere
    typeName := decl.typeName.map TypeName.bare
    init := decl.init.bare }

def Param.bare (param : Param) : Param :=
  { param with span := Span.nowhere, typeName := param.typeName.bare }

def ForInit.bare : ForInit → ForInit
  | .letVar decl => .letVar decl.bare
  | .assign e => .assign e.bare

mutual

def Stmt.bare : Stmt → Stmt
  | .expr _ e => .expr Span.nowhere e.bare
  | .letVar _ decl => .letVar Span.nowhere decl.bare
  | .function _ decl => .function Span.nowhere decl.bare
  | .block _ body => .block Span.nowhere body.bare
  | .ifElse _ condition thenBranch none =>
    .ifElse Span.nowhere condition.bare thenBranch.bare none
  | .ifElse _ condition thenBranch (some elseBranch) =>
    .ifElse Span.nowhere condition.bare thenBranch.bare (some elseBranch.bare)
  | .whileLoop _ condition body => .whileLoop Span.nowhere condition.bare body.bare
  | .forLoop _ init condition step body =>
    .forLoop Span.nowhere init.bare condition.bare step.bare body.bare
  | .breakLoop _ => .breakLoop Span.nowhere
  | .continueLoop _ => .continueLoop Span.nowhere
  | .returnValue _ value => .returnValue Span.nowhere (value.map Expr.bare)

def Stmt.allBare : List Stmt → List Stmt
  | [] => []
  | s :: rest => s.bare :: Stmt.allBare rest

def Block.bare : Block → Block
  | ⟨_, statements⟩ => ⟨Span.nowhere, Stmt.allBare statements⟩

def FunctionDecl.bare : FunctionDecl → FunctionDecl
  | ⟨_, name, _, params, resultName, body, _, symbol⟩ =>
    ⟨0, name, Span.nowhere, params.map Param.bare, resultName.map TypeName.bare, body.bare,
      Span.nowhere, symbol⟩

end

@[simp] theorem Stmt.allBare_eq_map (statements : List Stmt) :
    Stmt.allBare statements = statements.map Stmt.bare := by
  induction statements with
  | nil => rfl
  | cons s rest ih => simp [Stmt.allBare, ih]

@[simp] theorem Stmt.bare_ifElse (span : Span) (condition : Expr) (thenBranch : Block)
    (elseBranch : Option Block) : (Stmt.ifElse span condition thenBranch elseBranch).bare =
      .ifElse Span.nowhere condition.bare thenBranch.bare (elseBranch.map Block.bare) := by
  cases elseBranch <;> rfl

def Program.bare (program : Program) : Program :=
  ⟨program.statements.map Stmt.bare, Span.nowhere⟩

end Lu
