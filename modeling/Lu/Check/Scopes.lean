import Lu.Check.Error
import Lu.Tree.Basic

namespace Lu

/-- What a name stands for. Variables and functions share their names; types have their own. -/
inductive Declaration where
  | variable (symbol : VariableSymbol)
  | function (callee : Callee)
deriving DecidableEq, Repr, Inhabited

/-- The names that one scope declares, the latest first. -/
structure SymbolTable where
  values : List (String × Declaration) := []
  types : List (String × Ty) := []
deriving Inhabited

def SymbolTable.declare (table : SymbolTable) (name : String) (declaration : Declaration)
    (span : Span) : Check SymbolTable :=
  match table.values.lookup name with
  | some _ => Check.fail (.duplicateName name) span
  | none => .ok { table with values := (name, declaration) :: table.values }

/-- The scopes around a point of the program, the innermost first. The last one holds what is
built in. -/
structure Scopes where
  tables : List SymbolTable
deriving Inhabited

namespace Scopes

/-- The scope of a program over that of the built-in types and functions, so that a program can
use the names of the latter for its own. -/
def ofNatives (natives : List NativeSignature) : Scopes :=
  ⟨[{}, { values := natives.map fun native => (native.name, .function (.native native))
          types := Ty.annotatable.map fun ty => (ty.name, ty) }]⟩

def depth (scopes : Scopes) : Nat := scopes.tables.length

def push (scopes : Scopes) : Scopes := ⟨{} :: scopes.tables⟩

/-- Leaves the innermost scope; the last one stays. -/
def pop (scopes : Scopes) : Scopes :=
  match scopes.tables with
  | _ :: outer :: rest => ⟨outer :: rest⟩
  | _ => scopes

/-- Declares a name in the innermost scope, where it must be new. -/
def declare (scopes : Scopes) (name : String) (declaration : Declaration) (span : Span) :
    Check Scopes :=
  match scopes.tables with
  | inner :: outer => do return ⟨(← inner.declare name declaration span) :: outer⟩
  | [] => do return ⟨[← ({} : SymbolTable).declare name declaration span]⟩

def declareVariable (scopes : Scopes) (symbol : VariableSymbol) : Check Scopes :=
  scopes.declare symbol.name (.variable symbol) symbol.span

def declareFunction (scopes : Scopes) (symbol : FunctionSymbol) : Check Scopes :=
  scopes.declare symbol.name (.function (.user symbol)) symbol.span

/-- The innermost declaration of a name. -/
def lookup (scopes : Scopes) (name : String) : Option Declaration :=
  scopes.tables.findSome? (·.values.lookup name)

/-- The variable that a name means. -/
def findVariable (scopes : Scopes) (name : String) (span : Span) : Check VariableSymbol :=
  match scopes.lookup name with
  | some (.variable symbol) => .ok symbol
  | some (.function _) => Check.fail (.notVariable name) span
  | none => Check.fail (.unknownName name) span

/-- The function that a name means. -/
def findFunction (scopes : Scopes) (name : String) (span : Span) : Check Callee :=
  match scopes.lookup name with
  | some (.function callee) => .ok callee
  | some (.variable _) => Check.fail (.notFunction name) span
  | none => Check.fail (.unknownName name) span

/-- The type that a type name means. -/
def findType (scopes : Scopes) (typeName : TypeName) : Check Ty :=
  match scopes.tables.findSome? (·.types.lookup typeName.name) with
  | some ty => .ok ty
  | none => Check.fail (.unknownType typeName.name) typeName.span

end Scopes

end Lu
