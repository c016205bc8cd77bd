import Lu.Check.Filling
import Lu.Tree.Basic

namespace Lu

/-!
Types of expressions, from the leaves up. A variable has the type of its initial value, a loop
variable is an integer, and a reference takes over the type of the variable it means.
-/

/-- The types of the variables declared so far, each known by the symbol that the resolution of
names gave it, the innermost first. -/
abbrev VariableTypes := List (VariableSymbol × Ty)

/-- The symbol of a reference with its type, which a parameter has from the start. -/
def VariableSymbol.typed (types : VariableTypes) (symbol : VariableSymbol) :
    Except Fault (VariableSymbol × Ty) := do
  match symbol.type.value?, types.lookup symbol with
  | none, some ty => return ({ symbol with type := ⟨some ty⟩ }, ty)
  | _, _ => return (symbol, ← symbol.type.get)

def ExprNote.fillType (note : ExprNote) (ty : Ty) : Filling ExprNote := do
  return { note with type := ← Filling.fill note.type ty }

namespace Expr

def fillTypes (types : VariableTypes) : Expr → Filling Expr
  | .literal note value => return .literal (← note.fillType value.type) value
  | .variable note name symbol => do
    let (symbol, ty) ← Check.lift (symbol.get >>= VariableSymbol.typed types)
    return .variable (← note.fillType ty) name ⟨some symbol⟩
  | .assign note target value => do
    let target ← Filling.inside 0 (target.fillTypes types)
    let value ← Filling.inside 1 (value.fillTypes types)
    return .assign (← note.fillType .void) target value
  | .binary note op left right => do
    let left ← Filling.inside 0 (left.fillTypes types)
    let right ← Filling.inside 1 (right.fillTypes types)
    let leftType ← Check.lift left.type.get
    let rightType ← Check.lift right.type.get
    match op.resultType? leftType rightType with
    | some ty => return .binary (← note.fillType ty) op left right
    | none => Check.fail (.binaryOperands op leftType rightType) note.span
  | .unary note op operand => do
    let operand ← Filling.inside 0 (operand.fillTypes types)
    let operandType ← Check.lift operand.type.get
    match op.resultType? operandType with
    | some ty => return .unary (← note.fillType ty) op operand
    | none => Check.fail (.unaryOperand op operandType) note.span
  | .call note name nameSpan args callee => do
    let args ← Filling.inside 0 (fillAll types args)
    let found ← Check.lift callee.get
    return .call (← note.fillType found.result) name nameSpan args callee
where
  fillAll (types : VariableTypes) : List Expr → Filling (List Expr)
    | [] => return []
    | e :: rest => do
      let e ← Filling.inside 0 (e.fillTypes types)
      let rest ← Filling.inside 1 (fillAll types rest)
      return e :: rest

end Expr

/-- The type of a variable of the kind with the initial value. -/
def VariableKind.typeOf (init : Expr) : VariableKind → Check Ty
  | .iterator => return .int
  | .localVar | .parameter => Check.lift init.type.get

/-- Finds the type of a variable and stores it in its symbol. -/
def VarDecl.fillTypes (types : VariableTypes) (decl : VarDecl) :
    Filling (VarDecl × VariableTypes) := do
  let init ← Filling.inside 0 (decl.init.fillTypes types)
  let symbol ← Check.lift decl.symbol.get
  let ty ← symbol.kind.typeOf init
  let type ← Filling.fill symbol.type ty
  return ({ decl with init, symbol := ⟨some { symbol with type }⟩ }, (symbol, ty) :: types)

def ForInit.fillTypes (types : VariableTypes) : ForInit → Filling (ForInit × VariableTypes)
  | .letVar decl => do
    let (decl, types) ← decl.fillTypes types
    return (.letVar decl, types)
  | .assign e => return (.assign (← e.fillTypes types), types)

mutual

/-- Finds the types in a statement; gives those of the variables after it. -/
def Stmt.fillTypes (types : VariableTypes) : Stmt → Filling (Stmt × VariableTypes)
  | .expr span e => return (.expr span (← e.fillTypes types), types)
  | .letVar span decl => do
    let (decl, types) ← decl.fillTypes types
    return (.letVar span decl, types)
  | .function span decl => return (.function span (← decl.fillTypes types), types)
  | .block span body => return (.block span (← body.fillTypes types), types)
  | .ifElse span condition thenBranch none => do
    let condition ← Filling.inside 0 (condition.fillTypes types)
    let thenBranch ← Filling.inside 1 (thenBranch.fillTypes types)
    return (.ifElse span condition thenBranch none, types)
  | .ifElse span condition thenBranch (some elseBranch) => do
    let condition ← Filling.inside 0 (condition.fillTypes types)
    let thenBranch ← Filling.inside 1 (thenBranch.fillTypes types)
    let elseBranch ← Filling.inside 2 (elseBranch.fillTypes types)
    return (.ifElse span condition thenBranch (some elseBranch), types)
  | .whileLoop span condition body => do
    let condition ← Filling.inside 0 (condition.fillTypes types)
    let body ← Filling.inside 1 (body.fillTypes types)
    return (.whileLoop span condition body, types)
  | .forLoop span init condition step body => do
    let (init, inner) ← Filling.inside 0 (init.fillTypes types)
    let condition ← Filling.inside 1 (condition.fillTypes inner)
    let step ← Filling.inside 2 (step.fillTypes inner)
    let body ← Filling.inside 3 (body.fillTypes inner)
    return (.forLoop span init condition step body, types)
  | .breakLoop span => return (.breakLoop span, types)
  | .continueLoop span => return (.continueLoop span, types)
  | .returnValue span none => return (.returnValue span none, types)
  | .returnValue span (some value) =>
    return (.returnValue span (some (← value.fillTypes types)), types)

def Stmt.fillTypesAll (types : VariableTypes) : List Stmt → Filling (List Stmt)
  | [] => return []
  | s :: rest => do
    let (s, types) ← Filling.inside 0 (s.fillTypes types)
    let rest ← Filling.inside 1 (Stmt.fillTypesAll types rest)
    return s :: rest

def Block.fillTypes (types : VariableTypes) : Block → Filling Block
  | ⟨span, statements⟩ => return ⟨span, ← Stmt.fillTypesAll types statements⟩

def FunctionDecl.fillTypes (types : VariableTypes) : FunctionDecl → Filling FunctionDecl
  | ⟨id, name, nameSpan, params, resultName, body, span, symbol⟩ => do
    let body ← Filling.inside 1 (body.fillTypes types)
    return ⟨id, name, nameSpan, params, resultName, body, span, symbol⟩

end

def Program.resolveTypes (program : Program) : Check Program := do
  let statements ← Filling.start (Stmt.fillTypesAll [] program.statements)
  return { program with statements }

end Lu
