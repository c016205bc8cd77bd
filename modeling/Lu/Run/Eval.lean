import Lu.Run.Machine

namespace Lu

namespace Run

/-- A condition is an integer; all but zero is true. -/
def truth (span : Span) (value : Value) : Run Bool :=
  match value with
  | .int n => pure (n != 0)
  | other => fail (.typeMismatch (.condition other.type)) span

/-- Runs a piece for each item of a list, in order. -/
def forEach {α : Type} (piece : α → Run Unit) : List α → Run Unit
  | [] => pure ()
  | item :: rest => do
    piece item
    forEach piece rest

/-- Runs statements until one jumps. The value is that of the last one, which is given for the
case that there is none. -/
def sequence (run : Stmt → Run Flow) (last : Value) : List Stmt → Run Flow
  | [] => return .next last
  | s :: rest => do
    match ← run s with
    | .next value => sequence run value rest
    | flow => return flow

/-- Runs the statements of a program; a jump that no loop or call has caught is an error. -/
def topLevel (run : Stmt → Run Flow) (last : Value) : List Stmt → Run Value
  | [] => return last
  | s :: rest => do
    match ← run s with
    | .next value => topLevel run value rest
    | flow => fail (.internal (.escapedProgram flow)) s.span

/-- Binds the parameters of a function, of which there are as many as arguments. -/
def bindParams (decl : FunctionDecl) (args : List Value) (span : Span) : Run Unit :=
  if args.length = decl.params.length then
    forEach (fun (param, value) => change param.span (Context.addVariable param.name value))
      (decl.params.zip args)
  else fail (.internal (.arity decl.name args.length decl.params.length)) span

/-- What a call gives when the body of its function ends. -/
def callResult (decl : FunctionDecl) (span : Span) (flow : Flow) : Run Value :=
  match flow with
  | .returned value => pure value
  | .next _ => fail (.missingReturn decl.name) decl.nameSpan
  | .breakLoop | .continueLoop => fail (.internal (.escapedFunction flow decl.name)) span

mutual

/-- Evaluates an expression; its value becomes the latest operand. -/
def expr : Nat → Expr → Run Unit
  | 0, _ => outOfFuel
  | fuel + 1, e => do
    match e with
    | .literal _ value => push value
    | .variable note name _ =>
      push (← attempt note.span ((← context).getValue name))
    | .assign note target value =>
      match target with
      | .variable _ name _ => do
        expr fuel value
        let assigned ← peek value.span
        change note.span (Context.setVariable name assigned)
      | _ => fail (.internal .assignmentTarget) target.span
    | .binary note op left right =>
      match op with
      | .and =>
        if ← condition fuel left then push (.ofBool (← condition fuel right))
        else push (.ofBool false)
      | .or =>
        if ← condition fuel left then push (.ofBool true)
        else push (.ofBool (← condition fuel right))
      | _ => do
        expr fuel left
        expr fuel right
        let rightValue ← pop right.span
        let leftValue ← pop left.span
        push (← attempt note.span (op.eval leftValue rightValue))
    | .unary note op operand => do
      let value ← valueOf fuel operand
      push (← attempt note.span (op.eval value))
    | .call note _ _ args callee => do
      forEach (expr fuel) args
      let args ← popMany args.length note.span
      match ← attemptFault callee.get with
      | .native signature => push (← callNative signature.name args note.span)
      | .user symbol => push (← callUser fuel symbol args note.span)

/-- The value of an expression, taken off the operands. -/
def valueOf : Nat → Expr → Run Value
  | 0, _ => outOfFuel
  | fuel + 1, e => do
    expr fuel e
    pop e.span

def condition : Nat → Expr → Run Bool
  | 0, _ => outOfFuel
  | fuel + 1, e => do
    expr fuel e
    truth e.span (← pop e.span)

/-- Calls a function of the program. The frame hangs below the scope of its declaration. -/
def callUser : Nat → FunctionSymbol → List Value → Span → Run Value
  | 0, _, _, _ => outOfFuel
  | fuel + 1, symbol, args, span => do
    let (decl, scope) ← attempt span ((← context).getFunction symbol.id symbol.name)
    inCall decl.name span (inFrame scope do
      bindParams decl args span
      callResult decl span (← block fuel decl.body))

/-- Runs a statement. -/
def stmt : Nat → Stmt → Run Flow
  | 0, _ => outOfFuel
  | fuel + 1, s => do
    match s with
    | .expr _ e => return .next (← valueOf fuel e)
    | .letVar _ decl => return .next (← varDecl fuel decl)
    | .function _ decl => do
      change decl.nameSpan (Context.addFunction decl)
      return .next .void
    | .block _ body => block fuel body
    | .ifElse _ test thenBranch elseBranch =>
      if ← condition fuel test then block fuel thenBranch
      else match elseBranch with
        | some body => block fuel body
        | none => return .next .void
    | .whileLoop _ test body => whileLoop fuel test body
    | .forLoop _ init test step body => inScope do
      match init with
      | .letVar decl => do
        let _ ← varDecl fuel decl
      | .assign e => do
        let _ ← valueOf fuel e
      forLoop fuel test step body
    | .breakLoop _ => return .breakLoop
    | .continueLoop _ => return .continueLoop
    | .returnValue _ none => return .returned .void
    | .returnValue _ (some e) => return .returned (← valueOf fuel e)

/-- Binds a variable in the innermost scope and gives its value. -/
def varDecl : Nat → VarDecl → Run Value
  | 0, _ => outOfFuel
  | fuel + 1, decl => do
    let value ← valueOf fuel decl.init
    change decl.nameSpan (Context.addVariable decl.name value)
    return value

/-- Runs the statements of a block in a scope of their own. -/
def block : Nat → Block → Run Flow
  | 0, _ => outOfFuel
  | fuel + 1, body => inScope (sequence (stmt fuel) .void body.statements)

def whileLoop : Nat → Expr → Block → Run Flow
  | 0, _, _ => outOfFuel
  | fuel + 1, test, body => do
    if ← condition fuel test then
      match ← block fuel body with
      | .breakLoop => return .next .void
      | .returned value => return .returned value
      | .next _ | .continueLoop => whileLoop fuel test body
    else return .next .void

/-- The step comes after the body, also after a `continue`. -/
def forLoop : Nat → Expr → Expr → Block → Run Flow
  | 0, _, _, _ => outOfFuel
  | fuel + 1, test, step, body => do
    if ← condition fuel test then
      match ← block fuel body with
      | .breakLoop => return .next .void
      | .returned value => return .returned value
      | .next _ | .continueLoop => do
        let _ ← valueOf fuel step
        forLoop fuel test step body
    else return .next .void

end

/-- Runs a program; its value passes over the operands, where nothing else is left. -/
def program (fuel : Nat) (p : Program) : Run Value := do
  let last ← topLevel (stmt fuel) .void p.statements
  push last
  fun machine =>
    if machine.operands.length = 1 then pop p.span machine
    else .failed { kind := .internal (.leftOperands machine.operands.length), span := p.span } machine

end Run

/-- Runs a program on a machine, in a fresh scope. An error leaves no operands behind. -/
def Machine.evaluate (fuel : Nat) (p : Program) (machine : Machine) : Outcome Value :=
  match machine.operands with
  | _ :: _ => .failed { kind := .internal .staleOperands, span := p.span } machine
  | [] =>
    match Run.program fuel p { machine with context := Context.initial } with
    | .failed e machine => .failed e { machine with operands := [] }
    | outcome => outcome

end Lu
