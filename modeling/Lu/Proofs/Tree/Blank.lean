import Lu.Tree.Basic

namespace Lu

/-!
Trees without what the analysis writes into them: the slots are empty, as the parser leaves them.
-/

def ExprNote.blank (note : ExprNote) : ExprNote := { note with type := .unset }

def Expr.blank : Expr → Expr
  | .literal note value => .literal note.blank value
  | .variable note name _ => .variable note.blank name .unset
  | .assign note target value => .assign note.blank target.blank value.blank
  | .binary note op left right => .binary note.blank op left.blank right.blank
  | .unary note op operand => .unary note.blank op operand.blank
  | .call note name nameSpan args _ => .call note.blank name nameSpan (blankAll args) .unset
where
  blankAll : List Expr → List Expr
    | [] => []
    | e :: rest => e.blank :: blankAll rest

@[simp] theorem Expr.blankAll_eq_map (args : List Expr) :
    Expr.blank.blankAll args = args.map blank := by
  induction args with
  | nil => rfl
  | cons e rest ih => simp [blank.blankAll, ih]

/-- Where an expression stands does not matter for its slots. -/
theorem Expr.blank_setSpan (e : Expr) (span : Span) :
    (e.setSpan span).blank = e.blank.setSpan span := by
  cases e <;> rfl

def VarDecl.blank (decl : VarDecl) : VarDecl :=
  { decl with init := decl.init.blank, declared := .unset, symbol := .unset }

def Param.blank (param : Param) : Param := { param with symbol := .unset }

def ForInit.blank : ForInit → ForInit
  | .letVar decl => .letVar decl.blank
  | .assign e => .assign e.blank

mutual

def Stmt.blank : Stmt → Stmt
  | .expr span e => .expr span e.blank
  | .letVar span decl => .letVar span decl.blank
  | .function span decl => .function span decl.blank
  | .block span body => .block span body.blank
  | .ifElse span condition thenBranch none => .ifElse span condition.blank thenBranch.blank none
  | .ifElse span condition thenBranch (some elseBranch) =>
    .ifElse span condition.blank thenBranch.blank (some elseBranch.blank)
  | .whileLoop span condition body => .whileLoop span condition.blank body.blank
  | .forLoop span init condition step body =>
    .forLoop span init.blank condition.blank step.blank body.blank
  | .breakLoop span => .breakLoop span
  | .continueLoop span => .continueLoop span
  | .returnValue span value => .returnValue span (value.map Expr.blank)

def Stmt.allBlank : List Stmt → List Stmt
  | [] => []
  | s :: rest => s.blank :: Stmt.allBlank rest

def Block.blank : Block → Block
  | ⟨span, statements⟩ => ⟨span, Stmt.allBlank statements⟩

def FunctionDecl.blank : FunctionDecl → FunctionDecl
  | ⟨id, name, nameSpan, params, resultName, body, span, _⟩ =>
    ⟨id, name, nameSpan, params.map Param.blank, resultName, body.blank, span, .unset⟩

end

@[simp] theorem Stmt.allBlank_eq_map (statements : List Stmt) :
    Stmt.allBlank statements = statements.map Stmt.blank := by
  induction statements with
  | nil => rfl
  | cons s rest ih => simp [Stmt.allBlank, ih]

@[simp] theorem Stmt.blank_ifElse (span : Span) (condition : Expr) (thenBranch : Block)
    (elseBranch : Option Block) : (Stmt.ifElse span condition thenBranch elseBranch).blank =
      .ifElse span condition.blank thenBranch.blank (elseBranch.map Block.blank) := by
  cases elseBranch <;> rfl

def Program.blank (program : Program) : Program :=
  { program with statements := program.statements.map Stmt.blank }

end Lu
