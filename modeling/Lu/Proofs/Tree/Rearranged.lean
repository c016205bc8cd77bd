import Lu.Tree.Basic

namespace Lu

/-!
Trees that differ only in the order of functions that follow each other in a list of statements.
-/

variable (swaps : Prop)

mutual

/-- The second statement is the first one, in which neighbouring functions may have changed places
if `swaps` allows it. -/
inductive Stmt.Rearranged : Stmt → Stmt → Prop
  | expr {span e} : Stmt.Rearranged (.expr span e) (.expr span e)
  | letVar {span decl} : Stmt.Rearranged (.letVar span decl) (.letVar span decl)
  | function {span decl decl'} : FunctionDecl.Rearranged decl decl' →
      Stmt.Rearranged (.function span decl) (.function span decl')
  | block {span body body'} : Block.Rearranged body body' →
      Stmt.Rearranged (.block span body) (.block span body')
  | ifThen {span condition thenBranch thenBranch'} : Block.Rearranged thenBranch thenBranch' →
      Stmt.Rearranged (.ifElse span condition thenBranch none)
        (.ifElse span condition thenBranch' none)
  | ifElse {span condition thenBranch thenBranch' elseBranch elseBranch'} :
      Block.Rearranged thenBranch thenBranch' → Block.Rearranged elseBranch elseBranch' →
      Stmt.Rearranged (.ifElse span condition thenBranch (some elseBranch))
        (.ifElse span condition thenBranch' (some elseBranch'))
  | whileLoop {span condition body body'} : Block.Rearranged body body' →
      Stmt.Rearranged (.whileLoop span condition body) (.whileLoop span condition body')
  | forLoop {span init condition step body body'} : Block.Rearranged body body' →
      Stmt.Rearranged (.forLoop span init condition step body)
        (.forLoop span init condition step body')
  | breakLoop {span} : Stmt.Rearranged (.breakLoop span) (.breakLoop span)
  | continueLoop {span} : Stmt.Rearranged (.continueLoop span) (.continueLoop span)
  | returnValue {span value} : Stmt.Rearranged (.returnValue span value) (.returnValue span value)

inductive Stmt.AllRearranged : List Stmt → List Stmt → Prop
  | nil : Stmt.AllRearranged [] []
  | cons {s s' rest rest'} : Stmt.Rearranged s s' → Stmt.AllRearranged rest rest' →
      Stmt.AllRearranged (s :: rest) (s' :: rest')
  /-- Two neighbouring functions change places, each with its number and its spans. -/
  | swap {span span' f f' g g' rest rest'} : swaps → FunctionDecl.Rearranged f f' →
      FunctionDecl.Rearranged g g' → Stmt.AllRearranged rest rest' →
      Stmt.AllRearranged (.function span f :: .function span' g :: rest)
        (.function span' g' :: .function span f' :: rest')

inductive Block.Rearranged : Block → Block → Prop
  | mk {span statements statements'} : Stmt.AllRearranged statements statements' →
      Block.Rearranged ⟨span, statements⟩ ⟨span, statements'⟩

inductive FunctionDecl.Rearranged : FunctionDecl → FunctionDecl → Prop
  | mk {id name nameSpan params resultName body body' span symbol} : Block.Rearranged body body' →
      FunctionDecl.Rearranged ⟨id, name, nameSpan, params, resultName, body, span, symbol⟩
        ⟨id, name, nameSpan, params, resultName, body', span, symbol⟩

end

structure Program.Rearranged (p p' : Program) : Prop where
  span : p'.span = p.span
  statements : Stmt.AllRearranged swaps p.statements p'.statements

variable {swaps : Prop}

mutual

theorem Stmt.rearranged_self : ∀ s : Stmt, s.Rearranged swaps s
  | .expr .. => .expr
  | .letVar .. => .letVar
  | .function _ decl => .function decl.rearranged_self
  | .block _ body => .block body.rearranged_self
  | .ifElse _ _ thenBranch none => .ifThen thenBranch.rearranged_self
  | .ifElse _ _ thenBranch (some elseBranch) =>
    .ifElse thenBranch.rearranged_self elseBranch.rearranged_self
  | .whileLoop _ _ body => .whileLoop body.rearranged_self
  | .forLoop _ _ _ _ body => .forLoop body.rearranged_self
  | .breakLoop _ => .breakLoop
  | .continueLoop _ => .continueLoop
  | .returnValue .. => .returnValue

theorem Stmt.allRearranged_self : ∀ statements : List Stmt, Stmt.AllRearranged swaps statements statements
  | [] => .nil
  | s :: rest => .cons s.rearranged_self (Stmt.allRearranged_self rest)

theorem Block.rearranged_self : ∀ body : Block, body.Rearranged swaps body
  | ⟨_, statements⟩ => .mk (Stmt.allRearranged_self statements)

theorem FunctionDecl.rearranged_self : ∀ decl : FunctionDecl, decl.Rearranged swaps decl
  | ⟨_, _, _, _, _, body, _, _⟩ => .mk body.rearranged_self

end

theorem Program.rearranged_self (p : Program) : p.Rearranged swaps p :=
  ⟨rfl, Stmt.allRearranged_self p.statements⟩

mutual

theorem Stmt.Rearranged.symm : ∀ {s s' : Stmt}, s.Rearranged swaps s' → s'.Rearranged swaps s
  | _, _, .expr => .expr
  | _, _, .letVar => .letVar
  | _, _, .function decl => .function decl.symm
  | _, _, .block body => .block body.symm
  | _, _, .ifThen thenBranch => .ifThen thenBranch.symm
  | _, _, .ifElse thenBranch elseBranch => .ifElse thenBranch.symm elseBranch.symm
  | _, _, .whileLoop body => .whileLoop body.symm
  | _, _, .forLoop body => .forLoop body.symm
  | _, _, .breakLoop => .breakLoop
  | _, _, .continueLoop => .continueLoop
  | _, _, .returnValue => .returnValue

theorem Stmt.AllRearranged.symm : ∀ {statements statements' : List Stmt},
    Stmt.AllRearranged swaps statements statements' →
    Stmt.AllRearranged swaps statements' statements
  | _, _, .nil => .nil
  | _, _, .cons s rest => .cons s.symm rest.symm
  | _, _, .swap allowed f g rest => .swap allowed g.symm f.symm rest.symm

theorem Block.Rearranged.symm : ∀ {body body' : Block}, body.Rearranged swaps body' →
    body'.Rearranged swaps body
  | _, _, .mk statements => .mk statements.symm

theorem FunctionDecl.Rearranged.symm : ∀ {decl decl' : FunctionDecl},
    decl.Rearranged swaps decl' → decl'.Rearranged swaps decl
  | _, _, .mk body => .mk body.symm

end

/-- Of a function only the body is rearranged. -/
theorem FunctionDecl.Rearranged.eq_body {decl decl' : FunctionDecl}
    (rearranged : decl.Rearranged swaps decl') :
    decl' = { decl with body := decl'.body } ∧ decl.body.Rearranged swaps decl'.body := by
  cases rearranged with
  | mk body => exact ⟨rfl, body⟩

theorem FunctionDecl.Rearranged.id {decl decl' : FunctionDecl}
    (rearranged : decl.Rearranged swaps decl') : decl'.id = decl.id := by
  cases rearranged
  rfl

theorem FunctionDecl.Rearranged.name {decl decl' : FunctionDecl}
    (rearranged : decl.Rearranged swaps decl') : decl'.name = decl.name := by
  cases rearranged
  rfl

theorem FunctionDecl.Rearranged.nameSpan {decl decl' : FunctionDecl}
    (rearranged : decl.Rearranged swaps decl') : decl'.nameSpan = decl.nameSpan := by
  cases rearranged
  rfl

theorem Stmt.Rearranged.span {s s' : Stmt} (rearranged : s.Rearranged swaps s') :
    s'.span = s.span := by
  cases rearranged <;> rfl

theorem Block.Rearranged.span {body body' : Block} (rearranged : body.Rearranged swaps body') :
    body'.span = body.span := by
  cases rearranged
  rfl

theorem Block.Rearranged.statements {body body' : Block}
    (rearranged : body.Rearranged swaps body') :
    Stmt.AllRearranged swaps body.statements body'.statements := by
  cases rearranged with
  | mk statements => exact statements

end Lu
