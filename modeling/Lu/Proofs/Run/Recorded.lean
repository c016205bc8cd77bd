import Lu.Proofs.Scoping.Resolved
import Lu.Run.Eval

namespace Lu

/-!
A recorded run is a run with a record beside the machine. What goes into the record is up to a recorder,
which is told of everything that the evaluators come to. The run never looks at its record.
-/

/-- What the evaluators are set to do. -/
inductive Task where
  | expr (e : Expr)
  | callUser (symbol : FunctionSymbol) (args : List Value) (span : Span)
  | stmt (s : Stmt)
  | block (body : Block)
  /-- To give up with an error. -/
  | raise (kind : RuntimeErrorKind) (span : Span)

/-- What becomes of the record at the points of a run at which there is something to tell. -/
structure Recorder (σ : Type) where
  /-- The task is about to be done. -/
  begins : Task → Machine → σ → σ
  /-- The expression has been evaluated. -/
  evaluated : Expr → Machine → σ → σ
  /-- The name of a reference or an assignment target, which carries the symbol, is about to be
  looked up. -/
  refers : String → Attribute "variable declaration" VariableSymbol → Machine → σ → σ
  /-- The name has been bound in the innermost scope, for the symbol. -/
  binds : String → VariableSymbol → σ → σ
  /-- The function has been made known in the innermost scope. -/
  defines : FunctionDecl → σ → σ
  entersScope : σ → σ
  /-- The frame of a call is entered, below a scope. -/
  entersFrame : Nat → σ → σ
  entersCall : CallFrame → σ → σ
  /-- A scope, a frame or a call is left. The first record is that from before it was entered. -/
  leaves : σ → σ → σ

/-- A piece of a run that goes on with a record. -/
def Recorded (σ α : Type) := σ → Machine → Outcome α × σ

namespace Recorded

variable {σ α β : Type}

protected def pure (value : α) : Recorded σ α := fun record machine => (.done value machine, record)

protected def bind (first : Recorded σ α) (next : α → Recorded σ β) : Recorded σ β :=
  fun record machine =>
    match first record machine with
    | (.done value machine, record) => next value record machine
    | (.failed e machine, record) => (.failed e machine, record)
    | (.faulted f machine, record) => (.faulted f machine, record)
    | (.outOfFuel, record) => (.outOfFuel, record)

instance : Monad (Recorded σ) where
  pure := Recorded.pure
  bind := Recorded.bind

/-- Changes the record; the run goes on as it would. -/
def note (change : Machine → σ → σ) : Recorded σ Unit :=
  fun record machine => (.done () machine, change machine record)

def forEach (piece : α → Recorded σ Unit) : List α → Recorded σ Unit
  | [] => pure ()
  | item :: rest => do
    piece item
    forEach piece rest

def sequence (run : Stmt → Recorded σ Flow) (last : Value) : List Stmt → Recorded σ Flow
  | [] => return .next last
  | s :: rest => do
    match ← run s with
    | .next value => sequence run value rest
    | flow => return flow

variable (recorder : Recorder σ)

/-- A step of the run. If it fails, this is where the error is raised. -/
def step (piece : Run α) : Recorded σ α := fun record machine =>
  match piece machine with
  | .failed e after => (.failed e after, recorder.begins (.raise e.kind e.span) machine record)
  | outcome => (outcome, record)

def visit (task : Task) (piece : Recorded σ α) : Recorded σ α := do
  note (recorder.begins task)
  piece

def evaluating (e : Expr) (piece : Recorded σ Unit) : Recorded σ Unit := do
  piece
  note (recorder.evaluated e)

def refer (name : String) (symbol : Attribute "variable declaration" VariableSymbol) :
    Recorded σ Unit :=
  note (recorder.refers name symbol)

def bindVariable (span : Span) (name : String) (symbol : VariableSymbol) (value : Value) :
    Recorded σ Unit := do
  step recorder (Run.change span (Context.addVariable name value))
  note fun _ => recorder.binds name symbol

def defineFunction (decl : FunctionDecl) : Recorded σ Unit := do
  step recorder (Run.change decl.nameSpan (Context.addFunction decl))
  note fun _ => recorder.defines decl

/-- Runs a piece between two changes of the context. -/
def between (enter leave : Context → Context) (inside : σ → σ) (piece : Recorded σ α) :
    Recorded σ α := fun record machine =>
  (Run.between enter leave (fun inner => (piece (inside record) inner).1) machine,
    recorder.leaves record (piece (inside record) { machine with context := enter machine.context }).2)

def inScope (piece : Recorded σ α) : Recorded σ α :=
  between recorder Context.pushScope Context.popScope recorder.entersScope piece

def inFrame (staticLink : Nat) (piece : Recorded σ α) : Recorded σ α :=
  between recorder (·.pushFrame staticLink) Context.popFrame (recorder.entersFrame staticLink) piece

/-- Runs a piece as a call, unless there is no room for it. -/
def inCall (function : String) (span : Span) (piece : Recorded σ α) : Recorded σ α :=
  fun record machine =>
    let inside := recorder.entersCall ⟨function, span⟩ record
    (Run.inCall function span (fun inner => (piece inside inner).1) machine,
      match machine.calls.push ⟨function, span⟩ with
      | .error kind => recorder.begins (.raise kind span) machine record
      | .ok calls => recorder.leaves record (piece inside { machine with calls }).2)

def topLevel (run : Stmt → Recorded σ Flow) (last : Value) : List Stmt → Recorded σ Value
  | [] => return last
  | s :: rest => do
    match ← run s with
    | .next value => topLevel run value rest
    | flow => step recorder (Run.fail (.internal (.escapedProgram flow)) s.span)

def bindParams (decl : FunctionDecl) (args : List Value) (span : Span) : Recorded σ Unit :=
  if args.length = decl.params.length then
    forEach (fun (param, value) => bindVariable recorder param.span param.name param.binding value)
      (decl.params.zip args)
  else step recorder (Run.fail (.internal (.arity decl.name args.length decl.params.length)) span)

mutual

def expr : Nat → Expr → Recorded σ Unit
  | 0, _ => step recorder Run.outOfFuel
  | fuel + 1, e => evaluating recorder e <| visit recorder (.expr e) <|
    match e with
    | .literal _ value => step recorder (Run.push value)
    | .variable place name symbol => do
      refer recorder name symbol
      step recorder do Run.push (← Run.attempt place.span ((← Run.context).getValue name))
    | .assign place target value =>
      match target with
      | .variable _ name symbol => do
        expr fuel value
        refer recorder name symbol
        step recorder do
          let assigned ← Run.peek value.span
          Run.change place.span (Context.setVariable name assigned)
      | _ => step recorder (Run.fail (.internal .assignmentTarget) target.span)
    | .binary place op left right =>
      match op with
      | .and => do
        if ← condition fuel left then
          let value ← condition fuel right
          step recorder (Run.push (.ofBool value))
        else step recorder (Run.push (.ofBool false))
      | .or => do
        if ← condition fuel left then step recorder (Run.push (.ofBool true))
        else
          let value ← condition fuel right
          step recorder (Run.push (.ofBool value))
      | _ => do
        expr fuel left
        expr fuel right
        step recorder do
          let rightValue ← Run.pop right.span
          let leftValue ← Run.pop left.span
          Run.push (← Run.attempt place.span (op.eval leftValue rightValue))
    | .unary place op operand => do
      let value ← valueOf fuel operand
      step recorder do Run.push (← Run.attempt place.span (op.eval value))
    | .call place _ _ args callee => do
      forEach (expr fuel) args
      let values ← step recorder (Run.popMany args.length place.span)
      match ← step recorder (Run.attemptFault callee.get) with
      | .native signature =>
        step recorder do Run.push (← Run.callNative signature.name values place.span)
      | .user symbol => do
        let value ← callUser fuel symbol values place.span
        step recorder (Run.push value)

def valueOf : Nat → Expr → Recorded σ Value
  | 0, _ => step recorder Run.outOfFuel
  | fuel + 1, e => do
    expr fuel e
    step recorder (Run.pop e.span)

def condition : Nat → Expr → Recorded σ Bool
  | 0, _ => step recorder Run.outOfFuel
  | fuel + 1, e => do
    expr fuel e
    step recorder do Run.truth e.span (← Run.pop e.span)

def callUser : Nat → FunctionSymbol → List Value → Span → Recorded σ Value
  | 0, _, _, _ => step recorder Run.outOfFuel
  | fuel + 1, symbol, args, span => visit recorder (.callUser symbol args span) do
    let context ← step recorder Run.context
    let (decl, scope) ← step recorder (Run.attempt span (context.getFunction symbol.id symbol.name))
    inCall recorder decl.name span <| inFrame recorder scope do
      bindParams recorder decl args span
      let flow ← block fuel decl.body
      step recorder (Run.callResult decl span flow)

def stmt : Nat → Stmt → Recorded σ Flow
  | 0, _ => step recorder Run.outOfFuel
  | fuel + 1, s => visit recorder (.stmt s) <|
    match s with
    | .expr _ e => do return .next (← valueOf fuel e)
    | .letVar _ decl => do return .next (← varDecl fuel decl)
    | .function _ decl => do
      defineFunction recorder decl
      return .next .void
    | .block _ body => block fuel body
    | .ifElse _ test thenBranch elseBranch => do
      if ← condition fuel test then block fuel thenBranch
      else match elseBranch with
        | some body => block fuel body
        | none => return .next .void
    | .whileLoop _ test body => whileLoop fuel test body
    | .forLoop _ init test increment body => inScope recorder do
      match init with
      | .letVar decl => do
        let _ ← varDecl fuel decl
      | .assign e => do
        let _ ← valueOf fuel e
      forLoop fuel test increment body
    | .breakLoop _ => return .breakLoop
    | .continueLoop _ => return .continueLoop
    | .returnValue _ none => return .returned .void
    | .returnValue _ (some e) => do return .returned (← valueOf fuel e)

def varDecl : Nat → VarDecl → Recorded σ Value
  | 0, _ => step recorder Run.outOfFuel
  | fuel + 1, decl => do
    let value ← valueOf fuel decl.init
    bindVariable recorder decl.nameSpan decl.name decl.binding value
    return value

def block : Nat → Block → Recorded σ Flow
  | 0, _ => step recorder Run.outOfFuel
  | fuel + 1, body => visit recorder (.block body) <|
    inScope recorder (sequence (stmt fuel) .void body.statements)

def whileLoop : Nat → Expr → Block → Recorded σ Flow
  | 0, _, _ => step recorder Run.outOfFuel
  | fuel + 1, test, body => do
    if ← condition fuel test then
      match ← block fuel body with
      | .breakLoop => return .next .void
      | .returned value => return .returned value
      | .next _ | .continueLoop => whileLoop fuel test body
    else return .next .void

def forLoop : Nat → Expr → Expr → Block → Recorded σ Flow
  | 0, _, _, _ => step recorder Run.outOfFuel
  | fuel + 1, test, increment, body => do
    if ← condition fuel test then
      match ← block fuel body with
      | .breakLoop => return .next .void
      | .returned value => return .returned value
      | .next _ | .continueLoop => do
        let _ ← valueOf fuel increment
        forLoop fuel test increment body
    else return .next .void

end

def program (fuel : Nat) (p : Program) : Recorded σ Value := do
  let last ← topLevel recorder (stmt recorder fuel) .void p.statements
  step recorder do
    Run.push last
    fun machine =>
      if machine.operands.length = 1 then Run.pop p.span machine
      else .failed { kind := .internal (.leftOperands machine.operands.length), span := p.span }
        machine

end Recorded

/-- Runs a program as `Machine.evaluate` does, and gives what the record has become. -/
def Machine.record {σ : Type} (recorder : Recorder σ) (start : σ) (fuel : Nat) (p : Program)
    (machine : Machine) : Outcome Value × σ :=
  match machine.operands with
  | _ :: _ => (.failed { kind := .internal .staleOperands, span := p.span } machine, start)
  | [] =>
    match Recorded.program recorder fuel p start { machine with context := Context.initial } with
    | (.failed e machine, record) => (.failed e { machine with operands := [] }, record)
    | recorded => recorded

end Lu
