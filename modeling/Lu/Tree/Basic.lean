import Lu.Tree.Operator
import Lu.Tree.Symbol
import Lu.Value.Basic

namespace Lu

/-- What every expression carries: where it stands and, once it is known, its type. -/
structure ExprNote where
  span : Span
  type : Attribute "result type" Ty := .unset
deriving DecidableEq, Repr, Inhabited

inductive Expr where
  | literal (note : ExprNote) (value : Value)
  | variable (note : ExprNote) (name : String)
      (symbol : Attribute "variable declaration" VariableSymbol)
  /-- The grammar takes any expression for a target; the checker wants a variable. -/
  | assign (note : ExprNote) (target value : Expr)
  | binary (note : ExprNote) (op : BinaryOp) (left right : Expr)
  | unary (note : ExprNote) (op : UnaryOp) (operand : Expr)
  | call (note : ExprNote) (name : String) (nameSpan : Span) (args : List Expr)
      (callee : Attribute "function declaration" Callee)
deriving Inhabited

namespace Expr

def note : Expr → ExprNote
  | .literal note _ | .variable note _ _ | .assign note _ _ | .binary note _ _ _
  | .unary note _ _ | .call note _ _ _ _ => note

def span (e : Expr) : Span := e.note.span

def type (e : Expr) : Attribute "result type" Ty := e.note.type

def setNote (note : ExprNote) : Expr → Expr
  | .literal _ value => .literal note value
  | .variable _ name symbol => .variable note name symbol
  | .assign _ target value => .assign note target value
  | .binary _ op left right => .binary note op left right
  | .unary _ op operand => .unary note op operand
  | .call _ name nameSpan args callee => .call note name nameSpan args callee

/-- The same expression standing elsewhere. -/
def setSpan (span : Span) (e : Expr) : Expr := e.setNote { e.note with span }

def isVariable : Expr → Bool
  | .variable .. => true
  | _ => false

def isAssign : Expr → Bool
  | .assign .. => true
  | _ => false

end Expr

/-- A type name as it is written. -/
structure TypeName where
  name : String
  span : Span
deriving DecidableEq, Repr, Inhabited

/-- A variable with its initial value, in `let` or in the header of `for`. -/
structure VarDecl where
  name : String
  nameSpan : Span
  typeName : Option TypeName
  init : Expr
  /-- What the type name means; stays unset without one. -/
  declared : Attribute "declared type" Ty := .unset
  symbol : Attribute "variable symbol" VariableSymbol := .unset
deriving Inhabited

structure Param where
  name : String
  span : Span
  typeName : TypeName
  symbol : Attribute "parameter symbol" VariableSymbol := .unset
deriving DecidableEq, Repr, Inhabited

/-- The first part of a `for` header. -/
inductive ForInit where
  | letVar (decl : VarDecl)
  | assign (e : Expr)
deriving Inhabited

mutual

inductive Stmt where
  | expr (span : Span) (e : Expr)
  | letVar (span : Span) (decl : VarDecl)
  | function (span : Span) (decl : FunctionDecl)
  | block (span : Span) (body : Block)
  /-- After `else if` the other branch is a block of that one statement. -/
  | ifElse (span : Span) (condition : Expr) (thenBranch : Block) (elseBranch : Option Block)
  | whileLoop (span : Span) (condition : Expr) (body : Block)
  | forLoop (span : Span) (init : ForInit) (condition step : Expr) (body : Block)
  | breakLoop (span : Span)
  | continueLoop (span : Span)
  | returnValue (span : Span) (value : Option Expr)

structure Block where
  span : Span
  statements : List Stmt

/-- A declared function. Its number is its identity at run time. -/
structure FunctionDecl where
  id : Nat
  name : String
  nameSpan : Span
  params : List Param
  resultName : Option TypeName
  body : Block
  span : Span
  symbol : Attribute "function symbol" FunctionSymbol

end

instance : Inhabited Stmt := ⟨.breakLoop default⟩
instance : Inhabited Block := ⟨⟨default, []⟩⟩
instance : Inhabited FunctionDecl := ⟨⟨0, "", default, [], none, default, default, .unset⟩⟩

def Stmt.span : Stmt → Span
  | .expr span _ | .letVar span _ | .function span _ | .block span _ | .ifElse span _ _ _
  | .whileLoop span _ _ | .forLoop span _ _ _ _ | .breakLoop span | .continueLoop span
  | .returnValue span _ => span

/-- A whole source text. -/
structure Program where
  statements : List Stmt
  span : Span
deriving Inhabited

end Lu
