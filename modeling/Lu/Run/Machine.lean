import Lu.Run.CallStack
import Lu.Run.Context
import Lu.Run.Natives

namespace Lu

/-- The state of a run. -/
structure Machine where
  context : Context := Context.initial
  /-- The values of expressions that wait for their operator or call, the latest first. -/
  operands : List Value := []
  calls : CallStack
  env : Environment
deriving Inhabited

/-- How a piece of a run ends. Unless the fuel runs out, the machine is left in some state. -/
inductive Outcome (α : Type) where
  | done (value : α) (machine : Machine)
  | failed (e : RuntimeError) (machine : Machine)
  | faulted (f : Fault) (machine : Machine)
  | outOfFuel

/-- A piece of a run. -/
def Run (α : Type) := Machine → Outcome α

namespace Run

@[always_inline, inline]
protected def pure {α : Type} (value : α) : Run α := fun machine => .done value machine

@[always_inline, inline]
protected def bind {α β : Type} (first : Run α) (next : α → Run β) : Run β := fun machine =>
  match first machine with
  | .done value machine => next value machine
  | .failed e machine => .failed e machine
  | .faulted f machine => .faulted f machine
  | .outOfFuel => .outOfFuel

@[always_inline]
instance : Monad Run where
  pure := Run.pure
  bind := Run.bind

@[simp] theorem pure_apply {α : Type} (value : α) (machine : Machine) :
    (Pure.pure value : Run α) machine = .done value machine := rfl

theorem bind_apply {α β : Type} (first : Run α) (next : α → Run β) (machine : Machine) :
    (first >>= next) machine = match first machine with
      | .done value machine => next value machine
      | .failed e machine => .failed e machine
      | .faulted f machine => .faulted f machine
      | .outOfFuel => .outOfFuel := rfl

def outOfFuel {α : Type} : Run α := fun _ => .outOfFuel

@[inline] def fail {α : Type} (kind : RuntimeErrorKind) (span : Span) : Run α :=
  fun machine => .failed { kind, span } machine

/-- The value of an attempt, whose error belongs to the given place. -/
@[inline] def attempt {α : Type} (span : Span) (result : Except RuntimeErrorKind α) : Run α :=
  fun machine => match result with
    | .ok value => .done value machine
    | .error kind => .failed { kind, span } machine

/-- The value of an attempt that only a fault can stop. -/
@[inline] def attemptFault {α : Type} (result : Except Fault α) : Run α :=
  fun machine => match result with
    | .ok value => .done value machine
    | .error f => .faulted f machine

/-- The machine, which stays as it is. -/
@[inline] def context : Run Context := fun machine => .done machine.context machine

/-- A change of the context, whose error belongs to the given place. -/
@[inline] def change (span : Span) (action : Context.Action) : Run Unit :=
  fun machine => match action machine.context with
    | .ok _ context => .done () { machine with context }
    | .error kind context => .failed { kind, span } { machine with context }

@[inline] def push (value : Value) : Run Unit :=
  fun machine => .done () { machine with operands := value :: machine.operands }

/-- Takes the latest operand. -/
@[inline] def pop (span : Span) : Run Value := fun machine =>
  match machine.operands with
  | value :: rest => .done value { machine with operands := rest }
  | [] => .failed { kind := .internal .underflow, span } machine

/-- The latest operand, which stays. -/
@[inline] def peek (span : Span) : Run Value := fun machine =>
  match machine.operands with
  | value :: _ => .done value machine
  | [] => .failed { kind := .internal .underflow, span } machine

/-- Takes the latest operands in the order in which they came. -/
def popMany (count : Nat) (span : Span) : Run (List Value) := fun machine =>
  let taken := machine.operands.take count
  if taken.length = count then
    .done taken.reverse { machine with operands := machine.operands.drop count }
  else .failed { kind := .internal .argumentUnderflow, span } machine

/-- Runs a piece between two changes of the context, the second of which is made whether the
piece succeeds or not. -/
@[inline] def between {α : Type} (enter leave : Context → Context) (piece : Run α) : Run α :=
  fun machine =>
    match piece { machine with context := enter machine.context } with
    | .done value machine => .done value { machine with context := leave machine.context }
    | .failed e machine => .failed e { machine with context := leave machine.context }
    | .faulted f machine => .faulted f { machine with context := leave machine.context }
    | .outOfFuel => .outOfFuel

/-- Runs a piece in a scope of its own. -/
@[inline] def inScope {α : Type} (piece : Run α) : Run α :=
  between Context.pushScope Context.popScope piece

/-- Runs a piece in a frame of its own. -/
@[inline] def inFrame {α : Type} (staticLink : Nat) (piece : Run α) : Run α :=
  between (·.pushFrame staticLink) Context.popFrame piece

/-- Runs a piece as a call at the given place. An error that leaves it carries the calls that are
active then, and the call is over in any case. -/
@[inline] def inCall {α : Type} (function : String) (span : Span) (piece : Run α) : Run α :=
  fun machine =>
    match machine.calls.push ⟨function, span⟩ with
    | .error kind => .failed { kind, span } machine
    | .ok calls =>
      match piece { machine with calls } with
      | .done value machine => .done value { machine with calls := machine.calls.pop }
      | .failed e machine =>
        .failed (e.withBacktrace machine.calls.backtrace)
          { machine with calls := machine.calls.pop }
      | .faulted f machine => .faulted f { machine with calls := machine.calls.pop }
      | .outOfFuel => .outOfFuel

/-- Calls the built-in function of a name. -/
def callNative (name : String) (args : List Value) (span : Span) : Run Value := fun machine =>
  match Native.ofName? name with
  | none => .failed { kind := .undefinedFunction name, span } machine
  | some native =>
    match native.run args machine.env with
    | .ok value env => .done value { machine with env }
    | .error (.error kind) env => .failed { kind, span } { machine with env }
    | .error (.fault f) env => .faulted f { machine with env }

end Run

end Lu
