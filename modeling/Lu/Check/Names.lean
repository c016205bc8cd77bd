import Lu.Check.Deferred
import Lu.Check.Filling
import Lu.Check.Scopes

namespace Lu

/-!
Resolution of names: every reference gets the declaration that it means, every declaration its
symbol. A variable is visible from the end of its own declaration on. Functions that follow each
other without another statement between them see each other, so their bodies are resolved only
when all of them are declared.
-/

namespace Expr

def fillNames (scopes : Scopes) : Expr → Filling Expr
  | .literal note value => return .literal note value
  | .variable note name symbol => do
    let found ← scopes.findVariable name note.span
    return .variable note name (← Filling.fill symbol found)
  | .assign note target value => do
    let target ← Filling.inside 0 (target.fillNames scopes)
    let value ← Filling.inside 1 (value.fillNames scopes)
    return .assign note target value
  | .binary note op left right => do
    let left ← Filling.inside 0 (left.fillNames scopes)
    let right ← Filling.inside 1 (right.fillNames scopes)
    return .binary note op left right
  | .unary note op operand => do
    return .unary note op (← Filling.inside 0 (operand.fillNames scopes))
  | .call note name nameSpan args callee => do
    let args ← Filling.inside 0 (fillAll scopes args)
    let found ← scopes.findFunction name nameSpan
    return .call note name nameSpan args (← Filling.fill callee found)
where
  fillAll (scopes : Scopes) : List Expr → Filling (List Expr)
    | [] => return []
    | e :: rest => do
      let e ← Filling.inside 0 (e.fillNames scopes)
      let rest ← Filling.inside 1 (fillAll scopes rest)
      return e :: rest

end Expr

/-- Stores the annotated type of a variable, if there is one. -/
def VarDecl.fillTypeName (scopes : Scopes) (decl : VarDecl) :
    Filling (Attribute "declared type" Ty) := do
  match decl.typeName with
  | some typeName => Filling.fill decl.declared (← scopes.findType typeName)
  | none => return decl.declared

/-- Resolves a declaration and makes its name visible after it. -/
def VarDecl.fillNames (scopes : Scopes) (kind : VariableKind) (decl : VarDecl) :
    Filling (VarDecl × Scopes) := do
  let init ← Filling.inside 0 (decl.init.fillNames scopes)
  let declared ← decl.fillTypeName scopes
  let binding : VariableSymbol := ⟨decl.name, decl.nameSpan, kind, .unset⟩
  let symbol ← Filling.fill decl.symbol binding
  return ({ decl with init, declared, symbol }, ← scopes.declareVariable binding)

/-- Resolves the parameters of a function. Their types are known from the type names. -/
def fillParams (scopes : Scopes) : List Param → Filling (List Param × List VariableSymbol)
  | [] => return ([], [])
  | param :: rest => do
    let ty ← scopes.findType param.typeName
    let binding : VariableSymbol := ⟨param.name, param.span, .parameter, ⟨some ty⟩⟩
    let symbol ← Filling.inside 0 (Filling.fill param.symbol binding)
    let (rest, bindings) ← Filling.inside 1 (fillParams scopes rest)
    return ({ param with symbol } :: rest, binding :: bindings)

/-- Declares the parameters of a function with the symbols that they carry. -/
def declareParams (scopes : Scopes) : List Param → Check Scopes
  | [] => return scopes
  | param :: rest => do
    declareParams (← scopes.declareVariable (← Check.lift param.symbol.get)) rest

namespace FunctionDecl

/-- Without a result type the result is `void`. -/
def resolveResult (scopes : Scopes) (decl : FunctionDecl) : Check Ty :=
  match decl.resultName with
  | some typeName => scopes.findType typeName
  | none => return .void

/-- Resolves all of a function but its body, and makes the function visible. -/
def fillHeader (scopes : Scopes) (decl : FunctionDecl) : Filling (FunctionDecl × Scopes) := do
  let (params, bindings) ← Filling.inside 0 (fillParams scopes decl.params)
  let result ← decl.resolveResult scopes
  let function : FunctionSymbol := ⟨decl.id, decl.name, decl.nameSpan, bindings, result⟩
  let symbol ← Filling.fill decl.symbol function
  return ({ decl with params, symbol }, ← scopes.declareFunction function)

end FunctionDecl

/-- Declares the functions that the list begins with. Their bodies wait, behind those that wait
already. -/
def declareRun (scopes : Scopes) (queue : Deferred FunctionDecl) :
    List Stmt → Filling (Deferred FunctionDecl × Scopes)
  | .function _ decl :: rest => do
    let (header, scopes) ← Filling.inside 0 (decl.fillHeader scopes)
    Filling.inside 1 (declareRun scopes (queue.enqueue header) rest)
  | _ => return (queue, scopes)

/-- The functions whose bodies are next, with the scopes that they are in. If none waits, the list
begins a run of functions, which is declared now. -/
def nextRun (scopes : Scopes) (waiting : List FunctionDecl) (statements : List Stmt) :
    Filling (List FunctionDecl × Scopes) :=
  if waiting.isEmpty then do
    let (queue, scopes) ← declareRun scopes {} statements
    return (queue.take.1, scopes)
  else return (waiting, scopes)

/-- Resolves the first part of a `for` header; a variable is visible in the rest of the loop. -/
def ForInit.fillNames (scopes : Scopes) : ForInit → Filling (ForInit × Scopes)
  | .letVar decl => do
    let (decl, scopes) ← decl.fillNames scopes .iterator
    return (.letVar decl, scopes)
  | .assign e => return (.assign (← e.fillNames scopes), scopes)

mutual

/-- Resolves a statement; gives the scopes after it. -/
def Stmt.fillNames (scopes : Scopes) : Stmt → Filling (Stmt × Scopes)
  | .expr span e => return (.expr span (← e.fillNames scopes), scopes)
  | .letVar span decl => do
    let (decl, scopes) ← decl.fillNames scopes .localVar
    return (.letVar span decl, scopes)
  | .function span decl => do
    let (header, scopes) ← decl.fillHeader scopes
    return (.function span (← header.fillBody scopes decl), scopes)
  | .block span body => return (.block span (← body.fillNames scopes), scopes)
  | .ifElse span condition thenBranch none => do
    let condition ← Filling.inside 0 (condition.fillNames scopes)
    let thenBranch ← Filling.inside 1 (thenBranch.fillNames scopes)
    return (.ifElse span condition thenBranch none, scopes)
  | .ifElse span condition thenBranch (some elseBranch) => do
    let condition ← Filling.inside 0 (condition.fillNames scopes)
    let thenBranch ← Filling.inside 1 (thenBranch.fillNames scopes)
    let elseBranch ← Filling.inside 2 (elseBranch.fillNames scopes)
    return (.ifElse span condition thenBranch (some elseBranch), scopes)
  | .whileLoop span condition body => do
    let condition ← Filling.inside 0 (condition.fillNames scopes)
    let body ← Filling.inside 1 (body.fillNames scopes)
    return (.whileLoop span condition body, scopes)
  | .forLoop span init condition step body => do
    let (init, inner) ← Filling.inside 0 (init.fillNames scopes.push)
    let condition ← Filling.inside 1 (condition.fillNames inner)
    let step ← Filling.inside 2 (step.fillNames inner)
    let body ← Filling.inside 3 (body.fillNames inner)
    return (.forLoop span init condition step body, scopes)
  | .breakLoop span => return (.breakLoop span, scopes)
  | .continueLoop span => return (.continueLoop span, scopes)
  | .returnValue span none => return (.returnValue span none, scopes)
  | .returnValue span (some value) =>
    return (.returnValue span (some (← value.fillNames scopes)), scopes)

/-- Resolves a list of statements. The functions that it begins with may be declared already: they
wait, as they were declared. -/
def Stmt.fillAll (scopes : Scopes) (waiting : List FunctionDecl) :
    List Stmt → Filling (List Stmt)
  | [] => return []
  | .function span decl :: rest => do
    let (waiting, scopes) ← nextRun scopes waiting (.function span decl :: rest)
    let decl ← Filling.inside 0 ((waiting.headD decl).fillBody scopes decl)
    let rest ← Filling.inside 1 (Stmt.fillAll scopes waiting.tail rest)
    return .function span decl :: rest
  | s :: rest => do
    let (s, scopes) ← Filling.inside 0 (s.fillNames scopes)
    let rest ← Filling.inside 1 (Stmt.fillAll scopes [] rest)
    return s :: rest

def Block.fillNames (scopes : Scopes) : Block → Filling Block
  | ⟨span, statements⟩ => return ⟨span, ← Stmt.fillAll scopes.push [] statements⟩

/-- Resolves the body of a function that is declared already; gives the declared function with that
body. The parameters have a scope around that of the body. -/
def FunctionDecl.fillBody (scopes : Scopes) (declared : FunctionDecl) :
    FunctionDecl → Filling FunctionDecl
  | ⟨_, _, _, _, _, body, _, _⟩ => do
    let inner ← declareParams scopes.push declared.params
    let body ← Filling.inside 1 (body.fillNames inner)
    return { declared with body }

end

def Program.resolveNames (natives : List NativeSignature) (program : Program) :
    Check Program := do
  let statements ← Filling.start (Stmt.fillAll (Scopes.ofNatives natives) [] program.statements)
  return { program with statements }

end Lu
