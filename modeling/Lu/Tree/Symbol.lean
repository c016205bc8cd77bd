import Lu.Source.Span
import Lu.Tree.Attribute
import Lu.Value.Type

namespace Lu

inductive VariableKind where
  /-- Bound by `let` in a block or at the top. -/
  | localVar
  | parameter
  /-- Bound in the header of a `for` loop. -/
  | iterator
deriving DecidableEq, Repr, Inhabited

/-- A declared variable. The span is that of its name where it is declared, which tells it from
every other variable. -/
structure VariableSymbol where
  name : String
  span : Span
  kind : VariableKind
  type : Attribute "variable type" Ty
deriving DecidableEq, Repr, Inhabited

/-- A function that the program declares. -/
structure FunctionSymbol where
  id : Nat
  name : String
  span : Span
  params : List VariableSymbol
  result : Ty
deriving DecidableEq, Repr, Inhabited

/-- A parameter of a built-in function with the types it takes. -/
structure NativeParam where
  name : String
  takes : List Ty
deriving DecidableEq, Repr, Inhabited

def NativeParam.accepts (param : NativeParam) (found : Ty) : Bool :=
  param.takes.any (·.accepts found)

/-- The types it takes, separated by bars. -/
def NativeParam.typeText (param : NativeParam) : String :=
  "|".intercalate (param.takes.map Ty.name)

/-- What the checker knows of a built-in function. -/
structure NativeSignature where
  name : String
  params : List NativeParam
  result : Ty
deriving DecidableEq, Repr, Inhabited

/-- The function that a call means. -/
inductive Callee where
  | user (symbol : FunctionSymbol)
  | native (signature : NativeSignature)
deriving DecidableEq, Repr, Inhabited

namespace Callee

def name : Callee → String
  | .user symbol => symbol.name
  | .native signature => signature.name

def arity : Callee → Nat
  | .user symbol => symbol.params.length
  | .native signature => signature.params.length

def result : Callee → Ty
  | .user symbol => symbol.result
  | .native signature => signature.result

end Callee

end Lu
