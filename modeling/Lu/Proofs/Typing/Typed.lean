import Lu.Check.Agreement
import Lu.Proofs.Except

namespace Lu

/-!
What the types in a checked tree promise: that of each expression follows from those of its parts,
and each place gets what it expects.
-/

/-- The arguments may be passed: each has a type that its parameter takes. -/
def Callee.Takes (args : List Expr) : Callee → Prop
  | .user symbol => ∀ arg param, (arg, param) ∈ args.zip symbol.params →
      ∃ found expected, arg.type.value? = some found ∧ param.type.value? = some expected ∧
        expected.accepts found = true
  | .native signature => ∀ arg param, (arg, param) ∈ args.zip signature.params →
      ∃ found, arg.type.value? = some found ∧ param.accepts found = true

inductive Expr.Typed : Expr → Prop
  | literal {note value} : note.type.value? = some value.type → Typed (.literal note value)
  | variable {note name symbol s ty} : symbol.value? = some s → s.type.value? = some ty →
      note.type.value? = some ty → Typed (.variable note name symbol)
  | assign {note target value ty} : Typed target → Typed value →
      target.type.value? = some ty → value.type.value? = some ty → ty ≠ .void →
      note.type.value? = some .void → Typed (.assign note target value)
  | binary {note op left right leftType rightType ty} : Typed left → Typed right →
      left.type.value? = some leftType → right.type.value? = some rightType →
      op.resultType? leftType rightType = some ty → note.type.value? = some ty →
      Typed (.binary note op left right)
  | unary {note op operand operandType ty} : Typed operand →
      operand.type.value? = some operandType → op.resultType? operandType = some ty →
      note.type.value? = some ty → Typed (.unary note op operand)
  | call {note name nameSpan args callee c} : (∀ arg ∈ args, Typed arg) →
      callee.value? = some c → c.Takes args → note.type.value? = some c.result →
      Typed (.call note name nameSpan args callee)

/-- The variable has the type of its initial value, which is a value at all. -/
structure VarDecl.Typed (decl : VarDecl) (binding : VariableSymbol) : Prop where
  init : decl.init.Typed
  symbol : decl.symbol.value? = some binding
  type : ∃ ty, binding.type.value? = some ty ∧ decl.init.type.value? = some ty ∧ ty ≠ .void

def ForInit.Typed : ForInit → Prop
  | .letVar decl => ∃ binding, decl.Typed binding
  | .assign e => e.Typed

/-- An expression that decides between two ways. -/
structure Expr.Decides (e : Expr) : Prop where
  typed : e.Typed
  type : e.type.value? = some .int

/-- A value of the result type is returned. Where the result is `void` the value does not matter,
as it does outside a function, where nothing is returned. -/
def Expr.Returned (result : Option Ty) (e : Expr) : Prop :=
  ∀ ty, result = some ty → ty ≠ .void → e.type.value? = some ty

/-- Nothing can come after the last statement of the block. -/
def Block.EndsInReturn (body : Block) : Prop :=
  ∃ span value, body.statements.getLast? = some (.returnValue span value)

mutual

/-- The statement is well typed inside a function of the result, if it is inside one. -/
def Stmt.Typed (result : Option Ty) : Stmt → Prop
  | .expr _ e => e.Typed
  | .letVar _ decl => ∃ binding, decl.Typed binding
  | .function _ decl => decl.Typed
  | .block _ body => body.Typed result
  | .ifElse _ condition thenBranch none => condition.Decides ∧ thenBranch.Typed result
  | .ifElse _ condition thenBranch (some elseBranch) =>
    condition.Decides ∧ thenBranch.Typed result ∧ elseBranch.Typed result
  | .whileLoop _ condition body => condition.Decides ∧ body.Typed result
  | .forLoop _ init condition step body =>
    init.Typed ∧ condition.Decides ∧ step.Typed ∧ body.Typed result
  | .breakLoop _ | .continueLoop _ => True
  | .returnValue _ none => result = none ∨ result = some .void
  | .returnValue _ (some value) => value.Typed ∧ value.Returned result

def Stmt.AllTyped (result : Option Ty) : List Stmt → Prop
  | [] => True
  | s :: rest => s.Typed result ∧ Stmt.AllTyped result rest

def Block.Typed (result : Option Ty) : Block → Prop
  | ⟨_, statements⟩ => Stmt.AllTyped result statements

def FunctionDecl.Typed : FunctionDecl → Prop
  | ⟨_, _, _, _, _, body, _, symbol⟩ =>
    ∃ function, symbol.value? = some function ∧ body.Typed (some function.result) ∧
      body.EndsInReturn

end

def Program.Typed (program : Program) : Prop := Stmt.AllTyped none program.statements

end Lu
