import Lu.Check.Typing

namespace Lu

/-!
The types of expressions as functions of the tree alone, without a record of the slots that are
filled. `Program.resolveTypes_eq` says that this makes no difference.
-/

def ExprNote.setType (note : ExprNote) (ty : Ty) : Check ExprNote := do
  return { note with type := ← Check.lift (note.type.set ty) }

namespace Expr

def resolveTypes (types : VariableTypes) : Expr → Check Expr
  | .literal note value => return .literal (← note.setType value.type) value
  | .variable note name symbol => do
    let (symbol, ty) ← Check.lift (symbol.get >>= VariableSymbol.typed types)
    return .variable (← note.setType ty) name ⟨some symbol⟩
  | .assign note target value => do
    let target ← target.resolveTypes types
    let value ← value.resolveTypes types
    return .assign (← note.setType .void) target value
  | .binary note op left right => do
    let left ← left.resolveTypes types
    let right ← right.resolveTypes types
    let leftType ← Check.lift left.type.get
    let rightType ← Check.lift right.type.get
    match op.resultType? leftType rightType with
    | some ty => return .binary (← note.setType ty) op left right
    | none => Check.fail (.binaryOperands op leftType rightType) note.span
  | .unary note op operand => do
    let operand ← operand.resolveTypes types
    let operandType ← Check.lift operand.type.get
    match op.resultType? operandType with
    | some ty => return .unary (← note.setType ty) op operand
    | none => Check.fail (.unaryOperand op operandType) note.span
  | .call note name nameSpan args callee => do
    let args ← resolveAll types args
    let found ← Check.lift callee.get
    return .call (← note.setType found.result) name nameSpan args callee
where
  resolveAll (types : VariableTypes) : List Expr → Check (List Expr)
    | [] => return []
    | e :: rest => do
      let e ← e.resolveTypes types
      let rest ← resolveAll types rest
      return e :: rest

end Expr

def VarDecl.resolveTypes (types : VariableTypes) (decl : VarDecl) :
    Check (VarDecl × VariableTypes) := do
  let init ← decl.init.resolveTypes types
  let symbol ← Check.lift decl.symbol.get
  let ty ← symbol.kind.typeOf init
  let type ← Check.lift (symbol.type.set ty)
  return ({ decl with init, symbol := ⟨some { symbol with type }⟩ }, (symbol, ty) :: types)

def ForInit.resolveTypes (types : VariableTypes) : ForInit → Check (ForInit × VariableTypes)
  | .letVar decl => do
    let (decl, types) ← decl.resolveTypes types
    return (.letVar decl, types)
  | .assign e => return (.assign (← e.resolveTypes types), types)

mutual

/-- Finds the types in a statement; gives those of the variables after it. -/
def Stmt.resolveTypes (types : VariableTypes) : Stmt → Check (Stmt × VariableTypes)
  | .expr span e => return (.expr span (← e.resolveTypes types), types)
  | .letVar span decl => do
    let (decl, types) ← decl.resolveTypes types
    return (.letVar span decl, types)
  | .function span decl => return (.function span (← decl.resolveTypes types), types)
  | .block span body => return (.block span (← body.resolveTypes types), types)
  | .ifElse span condition thenBranch none => do
    let condition ← condition.resolveTypes types
    let thenBranch ← thenBranch.resolveTypes types
    return (.ifElse span condition thenBranch none, types)
  | .ifElse span condition thenBranch (some elseBranch) => do
    let condition ← condition.resolveTypes types
    let thenBranch ← thenBranch.resolveTypes types
    let elseBranch ← elseBranch.resolveTypes types
    return (.ifElse span condition thenBranch (some elseBranch), types)
  | .whileLoop span condition body => do
    let condition ← condition.resolveTypes types
    let body ← body.resolveTypes types
    return (.whileLoop span condition body, types)
  | .forLoop span init condition step body => do
    let (init, inner) ← init.resolveTypes types
    let condition ← condition.resolveTypes inner
    let step ← step.resolveTypes inner
    let body ← body.resolveTypes inner
    return (.forLoop span init condition step body, types)
  | .breakLoop span => return (.breakLoop span, types)
  | .continueLoop span => return (.continueLoop span, types)
  | .returnValue span none => return (.returnValue span none, types)
  | .returnValue span (some value) =>
    return (.returnValue span (some (← value.resolveTypes types)), types)

def Stmt.resolveTypesAll (types : VariableTypes) : List Stmt → Check (List Stmt)
  | [] => return []
  | s :: rest => do
    let (s, types) ← s.resolveTypes types
    let rest ← Stmt.resolveTypesAll types rest
    return s :: rest

def Block.resolveTypes (types : VariableTypes) : Block → Check Block
  | ⟨span, statements⟩ => return ⟨span, ← Stmt.resolveTypesAll types statements⟩

def FunctionDecl.resolveTypes (types : VariableTypes) : FunctionDecl → Check FunctionDecl
  | ⟨id, name, nameSpan, params, resultName, body, span, symbol⟩ => do
    let body ← body.resolveTypes types
    return ⟨id, name, nameSpan, params, resultName, body, span, symbol⟩

end

end Lu
