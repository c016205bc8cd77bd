import Lu.Check.Error
import Lu.Tree.Basic

namespace Lu

/-!
Agreement of types: what a place expects is what it gets. The types of all expressions are known
by now.
-/

/-- The function around a statement. -/
structure EnclosingFunction where
  name : String
  result : Ty
deriving DecidableEq, Repr

namespace Expr

/-- The type is just the expected one, and one that a variable can have. -/
def expectType (place : TypePlace) (expected : Ty) (e : Expr) : Check Unit := do
  let found ← Check.lift e.type.get
  if expected.accepts found then return
  Check.fail (.mismatch place expected found) e.span

/-- The arguments of a function of the program, from the given one on, counted from 1. -/
def checkUserArguments (function : String) (index : Nat) :
    List Expr → List VariableSymbol → Check Unit
  | arg :: args, param :: params => do
    let found ← Check.lift arg.type.get
    let expected ← Check.lift param.type.get
    if expected.accepts found then checkUserArguments function (index + 1) args params
    else Check.fail (.mismatch (.argument index param.name function) expected found) arg.span
  | _, _ => return

/-- The arguments of a built-in function, whose parameters may take several types. -/
def checkNativeArguments (function : String) (index : Nat) :
    List Expr → List NativeParam → Check Unit
  | arg :: args, param :: params => do
    let found ← Check.lift arg.type.get
    if param.accepts found then checkNativeArguments function (index + 1) args params
    else Check.fail (.nativeArgument index param function found) arg.span
  | _, _ => return

def checkTypes : Expr → Check Unit
  | .literal .. | .variable .. => return
  | .assign _ target value => do
    target.checkTypes
    value.checkTypes
    value.expectType .assignment (← Check.lift target.type.get)
  | .binary _ _ left right => do
    left.checkTypes
    right.checkTypes
  | .unary _ _ operand => operand.checkTypes
  | .call _ name _ args callee => do
    checkAll args
    match ← Check.lift callee.get with
    | .user symbol => checkUserArguments name 1 args symbol.params
    | .native signature => checkNativeArguments name 1 args signature.params
where
  checkAll : List Expr → Check Unit
    | [] => return
    | e :: rest => do
      e.checkTypes
      checkAll rest

end Expr

/-- A variable gets a value; its type is the annotated one, or else the value has a type that
tells. -/
def VarDecl.checkTypes (decl : VarDecl) : Check Unit := do
  decl.init.checkTypes
  let found ← Check.lift decl.init.type.get
  if found = .void then Check.fail (.valuelessInit decl.name) decl.init.span
  else match decl.declared.value? with
    | some expected =>
      if expected.accepts found then return
      else Check.fail (.mismatch .initialization expected found) decl.init.span
    | none =>
      if found = .nil then Check.fail (.nilInit decl.name) decl.init.span else return

/-- A loop starts from an integer. -/
def ForInit.checkTypes : ForInit → Check Unit
  | .letVar decl => do
    decl.checkTypes
    decl.init.expectType .forStart .int
  | .assign e => do
    e.checkTypes
    match e with
    | .assign _ target _ => target.expectType .forStart .int
    | _ => return

/-- The result of a `return` at the given place. A function without a result may return an
expression that has no value either. -/
def checkReturned (around : Option EnclosingFunction) (span : Span) (value : Option Expr) :
    Check Unit := do
  match around with
  | none => return
  | some function =>
    match function.result, value with
    | .void, none => return
    | .void, some value =>
      let found ← Check.lift value.type.get
      if found = .void then return
      else Check.fail (.unwantedResult function.name found) value.span
    | expected, none => Check.fail (.mismatch .returned expected .void) span
    | expected, some value => value.expectType .returned expected

/-- A body ends with a `return`, one of a value unless there is no result. -/
def checkFinalReturn (function : EnclosingFunction) (body : Block) : Check Unit :=
  match body.statements.getLast?, function.result with
  | some (.returnValue _ (some _)), _ => return
  | some (.returnValue _ none), .void => return
  | last, result =>
    Check.fail (.noFinalReturn function.name result) (last.elim body.span Stmt.span)

mutual

def Stmt.checkTypes (around : Option EnclosingFunction) : Stmt → Check Unit
  | .expr _ e => e.checkTypes
  | .letVar _ decl => decl.checkTypes
  | .function _ decl => decl.checkTypes
  | .block _ body => body.checkTypes around
  | .ifElse _ condition thenBranch none => do
    condition.checkTypes
    condition.expectType .ifCondition .int
    thenBranch.checkTypes around
  | .ifElse _ condition thenBranch (some elseBranch) => do
    condition.checkTypes
    condition.expectType .ifCondition .int
    thenBranch.checkTypes around
    elseBranch.checkTypes around
  | .whileLoop _ condition body => do
    condition.checkTypes
    condition.expectType .whileCondition .int
    body.checkTypes around
  | .forLoop _ init condition step body => do
    init.checkTypes
    condition.checkTypes
    condition.expectType .forCondition .int
    step.checkTypes
    body.checkTypes around
  | .breakLoop _ | .continueLoop _ => return
  | .returnValue span none => checkReturned around span none
  | .returnValue span (some value) => do
    value.checkTypes
    checkReturned around span (some value)

def Stmt.checkTypesAll (around : Option EnclosingFunction) : List Stmt → Check Unit
  | [] => return
  | s :: rest => do
    s.checkTypes around
    Stmt.checkTypesAll around rest

def Block.checkTypes (around : Option EnclosingFunction) : Block → Check Unit
  | ⟨_, statements⟩ => Stmt.checkTypesAll around statements

def FunctionDecl.checkTypes : FunctionDecl → Check Unit
  | ⟨_, name, _, _, _, body, _, symbol⟩ => do
    let function : EnclosingFunction := ⟨name, (← Check.lift symbol.get).result⟩
    body.checkTypes (some function)
    checkFinalReturn function body

end

def Program.checkTypes (program : Program) : Check Unit :=
  Stmt.checkTypesAll none program.statements

end Lu
