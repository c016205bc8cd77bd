import Lu.Run.Machine

namespace Lu

/-!
Changes of the context and calls of built-in functions are all or nothing: where one of them fails, it
leaves the context or the environment as it was.
-/

section Atomic

variable {ε σ α β : Type}

/-- Where the action fails, the state is as it was before. -/
def Atomic (action : EStateM ε σ α) : Prop :=
  ∀ state e after, action state = .error e after → after = state

theorem Atomic.pure (value : α) : Atomic (pure value : EStateM ε σ α) := by
  intro state e after failed
  cases failed

theorem Atomic.throw (e : ε) : Atomic (throw e : EStateM ε σ α) := by
  intro state e after failed
  cases failed
  rfl

theorem Atomic.set (state : σ) : Atomic (set state : EStateM ε σ PUnit) := by
  intro state e after failed
  cases failed

theorem Atomic.get {next : σ → EStateM ε σ β} (atNext : ∀ state, Atomic (next state)) :
    Atomic (get >>= next) :=
  fun state => atNext state state

/-- An attempt that does not look at the state does not change it either. -/
theorem Atomic.ofExcept {attempt : Except ε α} {next : α → EStateM ε σ β}
    (atNext : ∀ value, Atomic (next value)) : Atomic (ofExcept attempt >>= next) := by
  cases attempt with
  | ok value => exact atNext value
  | error e => exact Atomic.throw e

/-- What comes behind a change must not fail. -/
theorem Atomic.modify {change : σ → σ} (value : α) :
    Atomic (do modify change; return value : EStateM ε σ α) := by
  intro state e after failed
  cases failed

end Atomic

namespace Context

variable {context : Context} {name : String} {value : Value} {decl : FunctionDecl}

theorem setVariable_atomic (name : String) (value : Value) : Atomic (setVariable name value) := by
  refine .get fun context => ?_
  cases context.findScope (·.contains name) with
  | some index => exact .set _
  | none => exact .throw _

theorem addVariable_atomic (name : String) (value : Value) : Atomic (addVariable name value) := by
  refine .get fun context => ?_
  split
  · exact .throw _
  · exact .set _

theorem addFunction_atomic (decl : FunctionDecl) : Atomic (addFunction decl) := by
  refine .get fun context => ?_
  split
  · exact .throw _
  · exact .set _

theorem Action.result_get (next : Context → Action) :
    Action.result (get >>= next) context = (next context).result context := rfl

theorem assignVariable_eq : context.assignVariable name value =
    match context.findScope (·.contains name) with
    | some index => .ok { context with scopes := context.scopes.modify index (·.set name value) }
    | none => .error (.undefinedVariable name) := by
  rw [assignVariable, setVariable, Action.result_get]
  cases context.findScope (·.contains name) <;> rfl

theorem defineVariable_eq : context.defineVariable name value =
    if (context.scopes.back?).any (·.contains name) then .error (.duplicateDefinition name)
    else .ok (context.modifyInnermost fun scope =>
      { scope with values := (name, value) :: scope.values }) := by
  rw [defineVariable, addVariable, Action.result_get]
  split <;> rfl

theorem defineFunction_eq : context.defineFunction decl =
    if (context.scopes.back?).any fun scope => (scope.function? decl.id).isSome then
      .error (.duplicateDefinition decl.name)
    else .ok (context.modifyInnermost fun scope =>
      { scope with functions := (decl.id, decl) :: scope.functions }) := by
  rw [defineFunction, addFunction, Action.result_get]
  split <;> rfl

end Context

/-- A change of the context that is all or nothing: the machine has the changed context, or it is the
one that was there before. -/
theorem Run.change_eq {action : Context.Action} (atomic : Atomic action) (span : Span)
    (machine : Machine) : Run.change span action machine =
      match action.result machine.context with
      | .ok context => .done () { machine with context }
      | .error kind => .failed { kind, span } machine := by
  unfold Run.change Context.Action.result
  cases made : action machine.context with
  | ok _ context => rfl
  | error kind context =>
    obtain rfl := atomic _ _ _ made
    rfl

theorem Run.addFunction_eq (span : Span) (decl : FunctionDecl) (machine : Machine) :
    Run.change span (Context.addFunction decl) machine =
      match machine.context.defineFunction decl with
      | .ok context => .done () { machine with context }
      | .error kind => .failed { kind, span } machine :=
  Run.change_eq (Context.addFunction_atomic decl) span machine

theorem Run.change_eq_done {span : Span} {action : Context.Action} {machine after : Machine} :
    Run.change span action machine = .done () after ↔
      ∃ context, action.result machine.context = .ok context ∧ after = { machine with context } := by
  unfold Run.change Context.Action.result
  cases action machine.context <;> simp [eq_comm]

namespace Native

/-- A result that leaves the environment alone. -/
def quiet (env : Environment) (attempt : Except RuntimeErrorKind Value) : NativeResult :=
  match attempt with
  | .ok value => .ok (value, env)
  | .error kind => .error (.error kind)

theorem answer_result (attempt : Except RuntimeErrorKind Value) (env : Environment) :
    (answer attempt).result env = quiet env attempt := by
  cases attempt <;> rfl

theorem call_ftos (args : List Value) (env : Environment) : ftos.call args env = do
    return (.str (← placesText .ftos args), env) := by
  unfold call run
  cases placesText .ftos args <;> rfl

theorem call_printf (args : List Value) (env : Environment) : printf.call args env = do
    return (.void, env.print (← placesText .printf args)) := by
  unfold call run
  cases placesText .printf args <;> rfl

theorem call_input (args : List Value) (env : Environment) : input.call args env =
    match env.read with
    | some (line, env) => .ok (.str line, env)
    | none => .error (.error .inputExhausted) := by
  obtain ⟨lines, output⟩ := env
  cases lines <;> rfl

theorem answer_atomic (attempt : Except RuntimeErrorKind Value) : Atomic (answer attempt) := by
  cases attempt with
  | ok value => exact .pure value
  | error kind => exact .throw _

theorem printLine_atomic (attempt : Except NativeStop String) : Atomic (printLine attempt) :=
  .ofExcept fun _ => .modify _

/-- A built-in function that gives no value has neither read nor printed anything. -/
theorem run_atomic (native : Native) (args : List Value) : Atomic (native.run args) := by
  cases native with
  | itos | ftoi | itof | sconcat | strlen | substr | stoi | stof | abs | sqrt | pow | min | max =>
    exact answer_atomic _
  | ftos => exact .ofExcept fun _ => .pure _
  | printf | prints | print => exact printLine_atomic _
  | input =>
    refine .get fun env => ?_
    cases env.read with
    | none => exact .throw _
    | some found =>
      intro state e after failed
      cases failed

end Native

/-- A call of a built-in function that fails leaves the machine as it was. -/
theorem Run.callNative_eq (name : String) (args : List Value) (span : Span) (machine : Machine) :
    Run.callNative name args span machine =
      match Native.ofName? name with
      | none => .failed { kind := .undefinedFunction name, span } machine
      | some native =>
        match native.call args machine.env with
        | .ok (value, env) => .done value { machine with env }
        | .error (.error kind) => .failed { kind, span } machine
        | .error (.fault f) => .faulted f machine := by
  unfold Run.callNative
  cases Native.ofName? name with
  | none => rfl
  | some native =>
    unfold Native.call Native.Action.result
    simp only
    cases made : native.run args machine.env with
    | ok value env => rfl
    | error stop env =>
      obtain rfl := native.run_atomic args _ _ _ made
      cases stop <;> rfl

end Lu
