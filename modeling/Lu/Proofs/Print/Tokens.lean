import Lu.Proofs.Parse.Grammar
import Lu.Proofs.Print.Layout

namespace Lu

/-!
Trees written down: their tokens, with parentheses only around an operator that stands at a looser
level than its place allows, and the text of these tokens.
-/

/-- The level of the left operand. Only power does not associate to the left. -/
def BinaryOp.leftLevel (op : BinaryOp) : Nat := if op = .pow then 8 else op.level

def BinaryOp.rightLevel (op : BinaryOp) : Nat := if op = .pow then 7 else op.level + 1

/-- The literal for a value. -/
def Value.token : Value → TokenKind
  | .int n => .int n
  | .float x => .float x
  | .str text => .str text
  | .void | .nil => .keyword .nilK

/-- Parentheses around the tokens of a level, where a tighter one is asked for. -/
def atLevel (own asked : Nat) (tokens : List TokenKind) : List TokenKind :=
  if own < asked then .mark .leftParen :: tokens ++ [.mark .rightParen] else tokens

/-- The tokens of an expression where one of the level is asked for. -/
def Expr.tokens (level : Nat) : Expr → List TokenKind
  | .literal _ value => [value.token]
  | .variable _ name _ => [.ident name]
  | .assign _ target value =>
    atLevel 0 level (target.tokens 1 ++ .mark .assign :: value.tokens 0)
  | .binary _ op left right => atLevel op.level level
    (left.tokens op.leftLevel ++ .mark op.mark :: right.tokens op.rightLevel)
  | .unary _ op operand => atLevel 8 level (.mark op.mark :: operand.tokens 8)
  | .call _ name _ args _ =>
    .ident name :: .mark .leftParen :: separated (allTokens args) ++ [.mark .rightParen]
where
  allTokens : List Expr → List (List TokenKind)
    | [] => []
    | e :: rest => e.tokens 0 :: allTokens rest

@[simp] theorem Expr.allTokens_eq_map (args : List Expr) :
    Expr.tokens.allTokens args = args.map (Expr.tokens 0) := by
  induction args with
  | nil => rfl
  | cons e rest ih => rw [tokens.allTokens, ih, List.map_cons]

def VarDecl.tokens (decl : VarDecl) : List TokenKind :=
  .ident decl.name :: typeTokens (decl.typeName.map TypeName.name) ++
    .mark .assign :: decl.init.tokens 0

def ForInit.tokens : ForInit → List TokenKind
  | .letVar decl => .keyword .letK :: decl.tokens
  | .assign e => e.tokens 0

def Param.tokens (param : Param) : List TokenKind := paramTokens (param.name, param.typeName.name)

/-- The block of an `else` that can be written as `else if`. -/
def isElseIf : List Stmt → Bool
  | [.ifElse ..] => true
  | _ => false

theorem isElseIf_iff {statements : List Stmt} : isElseIf statements = true ↔
    ∃ span condition thenBranch elseBranch,
      statements = [.ifElse span condition thenBranch elseBranch] := by
  constructor
  · intro single
    unfold isElseIf at single
    split at single
    · exact ⟨_, _, _, _, rfl⟩
    · cases single
  · rintro ⟨_, _, _, _, rfl⟩
    rfl

def braced (tokens : List TokenKind) : List TokenKind :=
  .mark .leftBrace :: tokens ++ [.mark .rightBrace]

def ifTokens (condition thenTokens elseTokens : List TokenKind) : List TokenKind :=
  .keyword .ifK :: .mark .leftParen :: condition ++ .mark .rightParen :: thenTokens ++ elseTokens

mutual

def Stmt.tokens : Stmt → List TokenKind
  | .expr _ e => e.tokens 0 ++ [.mark .semicolon]
  | .letVar _ decl => .keyword .letK :: decl.tokens ++ [.mark .semicolon]
  | .function _ decl => decl.tokens
  | .block _ body => body.tokens
  | .ifElse _ condition thenBranch none => ifTokens (condition.tokens 0) thenBranch.tokens []
  | .ifElse _ condition thenBranch (some ⟨_, statements⟩) =>
    ifTokens (condition.tokens 0) thenBranch.tokens (.keyword .elseK ::
      if isElseIf statements then Stmt.allTokens statements
      else braced (Stmt.allTokens statements))
  | .whileLoop _ condition body =>
    .keyword .whileK :: .mark .leftParen :: condition.tokens 0 ++ .mark .rightParen :: body.tokens
  | .forLoop _ init condition step body =>
    .keyword .forK :: .mark .leftParen :: init.tokens ++ .mark .semicolon :: condition.tokens 0 ++
      .mark .semicolon :: step.tokens 0 ++ .mark .rightParen :: body.tokens
  | .breakLoop _ => [.keyword .breakK, .mark .semicolon]
  | .continueLoop _ => [.keyword .continueK, .mark .semicolon]
  | .returnValue _ none => [.keyword .returnK, .mark .semicolon]
  | .returnValue _ (some value) => .keyword .returnK :: value.tokens 0 ++ [.mark .semicolon]

def Stmt.allTokens : List Stmt → List TokenKind
  | [] => []
  | s :: rest => s.tokens ++ Stmt.allTokens rest

def Block.tokens : Block → List TokenKind
  | ⟨_, statements⟩ => braced (Stmt.allTokens statements)

def FunctionDecl.tokens : FunctionDecl → List TokenKind
  | ⟨_, name, _, params, resultName, body, _, _⟩ =>
    .keyword .fnK :: .ident name :: .mark .leftParen :: separated (params.map Param.tokens) ++
      .mark .rightParen :: typeTokens (resultName.map TypeName.name) ++ body.tokens

end

/-- The tokens behind the first branch. -/
def elseTokens : Option Block → List TokenKind
  | none => []
  | some ⟨_, statements⟩ => .keyword .elseK ::
    if isElseIf statements then Stmt.allTokens statements else braced (Stmt.allTokens statements)

theorem Stmt.tokens_ifElse (span : Span) (condition : Expr) (thenBranch : Block) :
    ∀ elseBranch : Option Block, (Stmt.ifElse span condition thenBranch elseBranch).tokens =
      ifTokens (condition.tokens 0) thenBranch.tokens (elseTokens elseBranch)
  | none | some ⟨_, _⟩ => rfl

@[simp] theorem Stmt.allTokens_eq_flatMap (statements : List Stmt) :
    Stmt.allTokens statements = statements.flatMap Stmt.tokens := by
  induction statements with
  | nil => rfl
  | cons s rest ih => rw [Stmt.allTokens, ih, List.flatMap_cons]

/-- The tokens of a program up to the end of file. -/
def Program.tokens (program : Program) : List TokenKind := Stmt.allTokens program.statements

/-- The program as a source text. -/
def Program.print (program : Program) : String := String.ofList (layOut program.tokens)

/-- There is a literal for the value that begins with no sign and is no float. -/
def Value.Printable : Value → Prop
  | .int n => 0 ≤ n
  | .str _ | .nil => True
  | .float _ | .void => False

def Expr.Printable : Expr → Prop
  | .literal _ value => value.Printable
  | .variable _ name _ => IsName name
  | .assign _ target value => target.Printable ∧ value.Printable
  | .binary _ _ left right => left.Printable ∧ right.Printable
  | .unary _ _ operand => operand.Printable
  | .call _ name _ args _ => IsName name ∧ allPrintable args
where
  allPrintable : List Expr → Prop
    | [] => True
    | e :: rest => e.Printable ∧ allPrintable rest

def TypeName.Printable (typeName : TypeName) : Prop := IsName typeName.name

structure VarDecl.Printable (decl : VarDecl) : Prop where
  name : IsName decl.name
  typeName : ∀ typeName ∈ decl.typeName, typeName.Printable
  init : decl.init.Printable

structure Param.Printable (param : Param) : Prop where
  name : IsName param.name
  typeName : param.typeName.Printable

/-- A loop starts with a declaration or with an assignment. -/
def ForInit.Printable : ForInit → Prop
  | .letVar decl => decl.Printable
  | .assign e => e.isAssign = true ∧ e.Printable

mutual

def Stmt.Printable : Stmt → Prop
  | .expr _ e => e.Printable
  | .letVar _ decl => decl.Printable
  | .function _ decl => decl.Printable
  | .block _ body => body.Printable
  | .ifElse _ condition thenBranch none => condition.Printable ∧ thenBranch.Printable
  | .ifElse _ condition thenBranch (some elseBranch) =>
    condition.Printable ∧ thenBranch.Printable ∧ elseBranch.Printable
  | .whileLoop _ condition body => condition.Printable ∧ body.Printable
  | .forLoop _ init condition step body =>
    init.Printable ∧ condition.Printable ∧ step.Printable ∧ body.Printable
  | .breakLoop _ | .continueLoop _ | .returnValue _ none => True
  | .returnValue _ (some value) => value.Printable

def Stmt.AllPrintable : List Stmt → Prop
  | [] => True
  | s :: rest => s.Printable ∧ Stmt.AllPrintable rest

def Block.Printable : Block → Prop
  | ⟨_, statements⟩ => Stmt.AllPrintable statements

def FunctionDecl.Printable : FunctionDecl → Prop
  | ⟨_, name, _, params, resultName, body, _, _⟩ =>
    IsName name ∧ (∀ param ∈ params, param.Printable) ∧
      (∀ typeName ∈ resultName, typeName.Printable) ∧ body.Printable

end

/-- Names are identifiers, literals are neither floats nor negative numbers, and loops start with a
declaration or with an assignment. -/
def Program.Printable (program : Program) : Prop := Stmt.AllPrintable program.statements

end Lu
