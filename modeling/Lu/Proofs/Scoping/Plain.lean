import Lu.Check.Names

namespace Lu

/-!
The resolution of names as functions of the tree alone, without a record of the slots that are
filled. A function is resolved as a whole where its body is, so its header is resolved once to
declare it and once more with the body; `Program.resolveNames_eq` says that this makes no
difference.
-/

namespace Expr

def resolveNames (scopes : Scopes) : Expr → Check Expr
  | .literal note value => return .literal note value
  | .variable note name symbol => do
    let found ← scopes.findVariable name note.span
    return .variable note name (← Check.lift (symbol.set found))
  | .assign note target value => do
    let target ← target.resolveNames scopes
    let value ← value.resolveNames scopes
    return .assign note target value
  | .binary note op left right => do
    let left ← left.resolveNames scopes
    let right ← right.resolveNames scopes
    return .binary note op left right
  | .unary note op operand => do
    return .unary note op (← operand.resolveNames scopes)
  | .call note name nameSpan args callee => do
    let args ← resolveAll scopes args
    let found ← scopes.findFunction name nameSpan
    return .call note name nameSpan args (← Check.lift (callee.set found))
where
  resolveAll (scopes : Scopes) : List Expr → Check (List Expr)
    | [] => return []
    | e :: rest => do
      let e ← e.resolveNames scopes
      let rest ← resolveAll scopes rest
      return e :: rest

end Expr

/-- The annotated type of a variable, if there is one. -/
def VarDecl.resolveTypeName (scopes : Scopes) (decl : VarDecl) :
    Check (Attribute "declared type" Ty) := do
  match decl.typeName with
  | some typeName => Check.lift (decl.declared.set (← scopes.findType typeName))
  | none => return decl.declared

/-- Resolves a declaration and makes its name visible after it. -/
def VarDecl.resolveNames (scopes : Scopes) (kind : VariableKind) (decl : VarDecl) :
    Check (VarDecl × Scopes) := do
  let init ← decl.init.resolveNames scopes
  let declared ← decl.resolveTypeName scopes
  let binding : VariableSymbol := ⟨decl.name, decl.nameSpan, kind, .unset⟩
  let symbol ← Check.lift (decl.symbol.set binding)
  return ({ decl with init, declared, symbol }, ← scopes.declareVariable binding)

/-- Resolves the parameters of a function. Their types are known from the type names. -/
def resolveParams (scopes : Scopes) : List Param → Check (List Param × List VariableSymbol)
  | [] => return ([], [])
  | param :: rest => do
    let ty ← scopes.findType param.typeName
    let binding : VariableSymbol := ⟨param.name, param.span, .parameter, ⟨some ty⟩⟩
    let symbol ← Check.lift (param.symbol.set binding)
    let (rest, bindings) ← resolveParams scopes rest
    return ({ param with symbol } :: rest, binding :: bindings)

namespace FunctionDecl

/-- Resolves all of a function but its body. -/
def resolveHeader (scopes : Scopes) (decl : FunctionDecl) :
    Check (FunctionDecl × FunctionSymbol) := do
  let (params, bindings) ← resolveParams scopes decl.params
  let result ← decl.resolveResult scopes
  let function : FunctionSymbol := ⟨decl.id, decl.name, decl.nameSpan, bindings, result⟩
  let symbol ← Check.lift (decl.symbol.set function)
  return ({ decl with params, symbol }, function)

end FunctionDecl

/-- The functions that a list of statements begins with. -/
def leadingFunctions : List Stmt → List FunctionDecl
  | .function _ decl :: rest => decl :: leadingFunctions rest
  | _ => []

def declareFunctions (scopes : Scopes) : List FunctionDecl → Check Scopes
  | [] => return scopes
  | decl :: rest => do
    let (_, function) ← decl.resolveHeader scopes
    declareFunctions (← scopes.declareFunction function) rest

def declareVariables (scopes : Scopes) : List VariableSymbol → Check Scopes
  | [] => return scopes
  | binding :: rest => do declareVariables (← scopes.declareVariable binding) rest

/-- Resolves the first part of a `for` header; a variable is visible in the rest of the loop. -/
def ForInit.resolveNames (scopes : Scopes) : ForInit → Check (ForInit × Scopes)
  | .letVar decl => do
    let (decl, scopes) ← decl.resolveNames scopes .iterator
    return (.letVar decl, scopes)
  | .assign e => return (.assign (← e.resolveNames scopes), scopes)

mutual

/-- Resolves a statement; gives the scopes after it. -/
def Stmt.resolveNames (scopes : Scopes) : Stmt → Check (Stmt × Scopes)
  | .expr span e => return (.expr span (← e.resolveNames scopes), scopes)
  | .letVar span decl => do
    let (decl, scopes) ← decl.resolveNames scopes .localVar
    return (.letVar span decl, scopes)
  | .function span decl => return (.function span (← decl.resolveNames scopes), scopes)
  | .block span body => return (.block span (← body.resolveNames scopes), scopes)
  | .ifElse span condition thenBranch none => do
    let condition ← condition.resolveNames scopes
    let thenBranch ← thenBranch.resolveNames scopes
    return (.ifElse span condition thenBranch none, scopes)
  | .ifElse span condition thenBranch (some elseBranch) => do
    let condition ← condition.resolveNames scopes
    let thenBranch ← thenBranch.resolveNames scopes
    let elseBranch ← elseBranch.resolveNames scopes
    return (.ifElse span condition thenBranch (some elseBranch), scopes)
  | .whileLoop span condition body => do
    let condition ← condition.resolveNames scopes
    let body ← body.resolveNames scopes
    return (.whileLoop span condition body, scopes)
  | .forLoop span init condition step body => do
    let (init, inner) ← init.resolveNames scopes.push
    let condition ← condition.resolveNames inner
    let step ← step.resolveNames inner
    let body ← body.resolveNames inner
    return (.forLoop span init condition step body, scopes)
  | .breakLoop span => return (.breakLoop span, scopes)
  | .continueLoop span => return (.continueLoop span, scopes)
  | .returnValue span none => return (.returnValue span none, scopes)
  | .returnValue span (some value) =>
    return (.returnValue span (some (← value.resolveNames scopes)), scopes)

/-- Resolves a list of statements; `inRun` says that it follows a function, with which its own
first functions are declared already. -/
def Stmt.resolveAll (scopes : Scopes) (inRun : Bool) : List Stmt → Check (List Stmt)
  | [] => return []
  | .function span decl :: rest => do
    let scopes ← if inRun then pure scopes
      else declareFunctions scopes (leadingFunctions (.function span decl :: rest))
    let decl ← decl.resolveNames scopes
    let rest ← Stmt.resolveAll scopes true rest
    return .function span decl :: rest
  | s :: rest => do
    let (s, scopes) ← s.resolveNames scopes
    let rest ← Stmt.resolveAll scopes false rest
    return s :: rest

def Block.resolveNames (scopes : Scopes) : Block → Check Block
  | ⟨span, statements⟩ => return ⟨span, ← Stmt.resolveAll scopes.push false statements⟩

/-- Resolves a function that is visible already. The parameters have a scope around that of the
body. -/
def FunctionDecl.resolveNames (scopes : Scopes) : FunctionDecl → Check FunctionDecl
  | ⟨id, name, nameSpan, params, resultName, body, span, symbol⟩ => do
    let (header, function) ← FunctionDecl.resolveHeader scopes
      ⟨id, name, nameSpan, params, resultName, body, span, symbol⟩
    let inner ← declareVariables scopes.push function.params
    let body ← body.resolveNames inner
    return { header with body }

end

end Lu
