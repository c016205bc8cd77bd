import Lu.Tree.Basic

namespace Lu

/-!
The places that a tree mentions: where its nodes stand, and where the names and types in it are
written.
-/

variable (place : Span → Prop)

def Expr.Within : Expr → Prop
  | .literal note _ | .variable note _ _ => place note.span
  | .assign note target value => place note.span ∧ target.Within ∧ value.Within
  | .binary note _ left right => place note.span ∧ left.Within ∧ right.Within
  | .unary note _ operand => place note.span ∧ operand.Within
  | .call note _ nameSpan args _ => place note.span ∧ place nameSpan ∧ allWithin args
where
  allWithin : List Expr → Prop
    | [] => True
    | e :: rest => e.Within ∧ allWithin rest

def VarDecl.Within (decl : VarDecl) : Prop :=
  place decl.nameSpan ∧ (∀ typeName ∈ decl.typeName, place typeName.span) ∧ decl.init.Within place

def ForInit.Within : ForInit → Prop
  | .letVar decl => decl.Within place
  | .assign e => e.Within place

def Param.Within (param : Param) : Prop := place param.span ∧ place param.typeName.span

mutual

def Stmt.Within : Stmt → Prop
  | .expr span e => place span ∧ e.Within place
  | .letVar span decl => place span ∧ decl.Within place
  | .function span decl => place span ∧ decl.Within
  | .block span body => place span ∧ body.Within
  | .ifElse span condition thenBranch none =>
    place span ∧ condition.Within place ∧ thenBranch.Within
  | .ifElse span condition thenBranch (some elseBranch) =>
    place span ∧ condition.Within place ∧ thenBranch.Within ∧ elseBranch.Within
  | .whileLoop span condition body => place span ∧ condition.Within place ∧ body.Within
  | .forLoop span init condition step body =>
    place span ∧ init.Within place ∧ condition.Within place ∧ step.Within place ∧ body.Within
  | .breakLoop span | .continueLoop span | .returnValue span none => place span
  | .returnValue span (some value) => place span ∧ value.Within place

def Stmt.AllWithin : List Stmt → Prop
  | [] => True
  | s :: rest => s.Within ∧ Stmt.AllWithin rest

def Block.Within : Block → Prop
  | ⟨span, statements⟩ => place span ∧ Stmt.AllWithin statements

def FunctionDecl.Within : FunctionDecl → Prop
  | ⟨_, _, nameSpan, params, resultName, body, span, _⟩ =>
    place nameSpan ∧ (∀ param ∈ params, param.Within place) ∧
      (∀ typeName ∈ resultName, place typeName.span) ∧ body.Within ∧ place span

end

def Program.Within (program : Program) : Prop :=
  place program.span ∧ Stmt.AllWithin place program.statements

variable {place : Span → Prop}

theorem Expr.allWithin_iff {args : List Expr} :
    Expr.Within.allWithin place args ↔ ∀ arg ∈ args, arg.Within place := by
  induction args with
  | nil => simp [Expr.Within.allWithin]
  | cons e rest ih => simp [Expr.Within.allWithin, ih]

theorem Stmt.allWithin_iff {statements : List Stmt} :
    Stmt.AllWithin place statements ↔ ∀ s ∈ statements, s.Within place := by
  induction statements with
  | nil => simp [Stmt.AllWithin]
  | cons s rest ih => simp [Stmt.AllWithin, ih]

theorem Expr.Within.span {e : Expr} (within : e.Within place) : place e.span := by
  cases e with
  | literal | «variable» => exact within
  | assign | binary | unary | call => exact within.1

theorem Expr.Within.setSpan {e : Expr} (within : e.Within place) {span : Span} (there : place span) :
    (e.setSpan span).Within place := by
  cases e with
  | literal | «variable» => exact there
  | assign | binary | unary | call => exact ⟨there, within.2⟩

theorem Stmt.Within.span {s : Stmt} (within : s.Within place) : place s.span := by
  cases s with
  | breakLoop | continueLoop => exact within
  | expr | letVar | function | block | whileLoop | forLoop => exact within.1
  | ifElse _ _ _ elseBranch => cases elseBranch <;> exact within.1
  | returnValue _ value =>
    cases value with
    | none => exact within
    | some value => exact within.1

theorem Block.within_iff (body : Block) :
    body.Within place ↔ place body.span ∧ Stmt.AllWithin place body.statements := by
  cases body
  rfl

theorem FunctionDecl.within_iff (decl : FunctionDecl) :
    decl.Within place ↔ place decl.nameSpan ∧ (∀ param ∈ decl.params, param.Within place) ∧
      (∀ typeName ∈ decl.resultName, place typeName.span) ∧ decl.body.Within place ∧
      place decl.span := by
  cases decl
  rfl

/-!
A property that all places have is that of the places of any tree.
-/

mutual

theorem Expr.within_of_all (all : ∀ span, place span) : ∀ e : Expr, e.Within place
  | .literal .. | .variable .. => all _
  | .assign _ target value => ⟨all _, target.within_of_all all, value.within_of_all all⟩
  | .binary _ _ left right => ⟨all _, left.within_of_all all, right.within_of_all all⟩
  | .unary _ _ operand => ⟨all _, operand.within_of_all all⟩
  | .call _ _ _ args _ => ⟨all _, all _, Expr.allWithin_of_all all args⟩

theorem Expr.allWithin_of_all (all : ∀ span, place span) :
    ∀ args : List Expr, Expr.Within.allWithin place args
  | [] => trivial
  | e :: rest => ⟨e.within_of_all all, Expr.allWithin_of_all all rest⟩

end

theorem VarDecl.within_of_all (all : ∀ span, place span) (decl : VarDecl) : decl.Within place :=
  ⟨all _, fun _ _ => all _, decl.init.within_of_all all⟩

theorem ForInit.within_of_all (all : ∀ span, place span) : ∀ init : ForInit, init.Within place
  | .letVar decl => decl.within_of_all all
  | .assign e => e.within_of_all all

mutual

theorem Stmt.within_of_all (all : ∀ span, place span) : ∀ s : Stmt, s.Within place
  | .expr _ e => ⟨all _, e.within_of_all all⟩
  | .letVar _ decl => ⟨all _, decl.within_of_all all⟩
  | .function _ decl => ⟨all _, decl.within_of_all all⟩
  | .block _ body => ⟨all _, body.within_of_all all⟩
  | .ifElse _ condition thenBranch none =>
    ⟨all _, condition.within_of_all all, thenBranch.within_of_all all⟩
  | .ifElse _ condition thenBranch (some elseBranch) =>
    ⟨all _, condition.within_of_all all, thenBranch.within_of_all all,
      elseBranch.within_of_all all⟩
  | .whileLoop _ condition body =>
    ⟨all _, condition.within_of_all all, body.within_of_all all⟩
  | .forLoop _ init condition step body =>
    ⟨all _, init.within_of_all all, condition.within_of_all all, step.within_of_all all,
      body.within_of_all all⟩
  | .breakLoop _ | .continueLoop _ | .returnValue _ none => all _
  | .returnValue _ (some value) => ⟨all _, value.within_of_all all⟩

theorem Stmt.allWithin_of_all (all : ∀ span, place span) :
    ∀ statements : List Stmt, Stmt.AllWithin place statements
  | [] => trivial
  | s :: rest => ⟨s.within_of_all all, Stmt.allWithin_of_all all rest⟩

theorem Block.within_of_all (all : ∀ span, place span) : ∀ body : Block, body.Within place
  | ⟨_, statements⟩ => ⟨all _, Stmt.allWithin_of_all all statements⟩

theorem FunctionDecl.within_of_all (all : ∀ span, place span) :
    ∀ decl : FunctionDecl, decl.Within place
  | ⟨_, _, _, _, _, body, _, _⟩ =>
    ⟨all _, fun _ _ => ⟨all _, all _⟩, fun _ _ => all _, body.within_of_all all, all _⟩

end

theorem Program.within_of_all (all : ∀ span, place span) (program : Program) :
    program.Within place :=
  ⟨all _, Stmt.allWithin_of_all all program.statements⟩

end Lu
