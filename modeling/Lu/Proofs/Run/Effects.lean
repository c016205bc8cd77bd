import Lu.Proofs.Except
import Lu.Proofs.Run.Actions
import Lu.Proofs.Run.OperatorTable
import Lu.Run.Eval

namespace Lu

/-!
What the operators and the built-in functions do to the world, and that none of them ever runs out of
calls.
-/

/-- The world after a piece of a run: lines may have been read off the input, and lines may have been
added to the output. -/
structure Environment.Leads (env after : Environment) : Prop where
  input : after.input <:+ env.input
  output : env.output.toList <+: after.output.toList

namespace Environment.Leads

theorem refl (env : Environment) : env.Leads env := ⟨List.suffix_rfl, List.prefix_rfl⟩

theorem trans {env between after : Environment} (first : env.Leads between)
    (second : between.Leads after) : env.Leads after :=
  ⟨second.input.trans first.input, first.output.trans second.output⟩

theorem print (env : Environment) (line : String) : env.Leads (env.print line) := by
  refine ⟨List.suffix_rfl, ?_⟩
  simp only [Environment.print, Array.toList_push]
  exact List.prefix_append _ _

theorem read {env after : Environment} {line : String} (read : env.read = some (line, after)) :
    env.Leads after := by
  obtain ⟨input, output⟩ := env
  cases input with
  | nil => cases read
  | cons first rest =>
    cases read
    exact ⟨List.suffix_cons _ _, List.prefix_rfl⟩

end Environment.Leads

/-- The attempt does not end for want of calls. -/
def NoOverflow {α : Type} (result : Except RuntimeErrorKind α) : Prop :=
  ∀ limit, result ≠ .error (.stackOverflow limit)

namespace NoOverflow

variable {α β : Type}

theorem ok (value : α) : NoOverflow (.ok value) := fun _ same => by cases same

theorem arithmetic {kind : RuntimeErrorKind} (arithmetic : kind.Arithmetic) :
    NoOverflow (.error kind : Except RuntimeErrorKind α) := by
  cases arithmetic <;> exact fun _ same => by cases same

theorem bind {first : Except RuntimeErrorKind α} {next : α → Except RuntimeErrorKind β}
    (atFirst : NoOverflow first) (atNext : ∀ value, NoOverflow (next value)) :
    NoOverflow (first >>= next) := by
  cases first with
  | ok value => exact atNext value
  | error kind =>
    intro limit same
    cases same
    exact atFirst limit rfl

theorem ite {condition : Prop} [Decidable condition] {first second : Except RuntimeErrorKind α}
    (atFirst : NoOverflow first) (atSecond : NoOverflow second) :
    NoOverflow (if condition then first else second) := by
  split
  · exact atFirst
  · exact atSecond

end NoOverflow

section Operators

theorem Computes.noOverflow {α : Type} {post : α → Prop} {result : Except RuntimeErrorKind α}
    (computes : Computes post result) : NoOverflow result := by
  cases computes with
  | value => exact .ok _
  | error arithmetic => exact .arithmetic arithmetic

theorem checkedInt_noOverflow (operation : String) (result : Int) :
    NoOverflow (checkedInt operation result) :=
  (checkedInt_computes operation result).noOverflow

theorem intPow_noOverflow (base exponent : Int64) : NoOverflow (intPow base exponent) :=
  (intPow_computes base exponent).noOverflow

theorem BinaryOp.eval_noOverflow (op : BinaryOp) (left right : Value) :
    NoOverflow (op.eval left right) := by
  have ends := op.eval_ends left right
  generalize op.resultType? left.type right.type = entry at ends
  generalize op.eval left right = result at ends ⊢
  cases ends with
  | value | equality => exact .ok _
  | arithmetic _ _ _ kind => exact .arithmetic kind
  | clash => exact fun _ same => by cases same

theorem UnaryOp.eval_noOverflow (op : UnaryOp) (operand : Value) : NoOverflow (op.eval operand) := by
  have ends := op.eval_ends operand
  generalize op.resultType? operand.type = entry at ends
  generalize op.eval operand = result at ends ⊢
  cases ends with
  | value => exact .ok _
  | overflow | clash => exact fun _ same => by cases same

end Operators

namespace Native

/-- What a call of a built-in function comes to, whatever the environment is. -/
inductive Effect where
  | given (value : Value)
  | printed (line : String)
  /-- The next line of the input is the value, and an error if there is none. -/
  | reading
  | stopped (stop : NativeStop)

namespace Effect

def result (env : Environment) : Effect → NativeResult
  | .given value => .ok (value, env)
  | .printed line => .ok (.void, env.print line)
  | .reading =>
    match env.read with
    | some (line, env) => .ok (.str line, env)
    | none => .error (.error .inputExhausted)
  | .stopped stop => .error stop

def NoOverflow : Effect → Prop
  | .stopped (.error kind) => ∀ limit, kind ≠ .stackOverflow limit
  | .stopped (.fault _) | .given _ | .printed _ | .reading => True

end Effect

/-- A call whose effect does not depend on the environment. -/
def Uniform (call : Environment → NativeResult) : Prop :=
  ∃ effect : Effect, effect.NoOverflow ∧ ∀ env, call env = effect.result env

theorem answer_uniform {attempt : Except RuntimeErrorKind Value} (calm : NoOverflow attempt) :
    Uniform (answer attempt).result := by
  cases attempt with
  | ok value => exact ⟨.given value, trivial, fun _ => rfl⟩
  | error kind => exact ⟨.stopped (.error kind), fun limit same => calm limit (same ▸ rfl), fun _ => rfl⟩

theorem printLine_uniform {attempt : Except RuntimeErrorKind String} (calm : NoOverflow attempt) :
    Uniform (printLine (attempt.mapError .error)).result := by
  cases attempt with
  | ok line => exact ⟨.printed line, trivial, fun _ => rfl⟩
  | error kind => exact ⟨.stopped (.error kind), fun limit same => calm limit (same ▸ rfl), fun _ => rfl⟩

section Arguments

variable (args : List Value) (index : Nat)

theorem arg_noOverflow : NoOverflow (arg args index) := by
  unfold arg
  split
  · exact .ok _
  · exact fun _ same => by cases same

theorem intArg_noOverflow : NoOverflow (intArg args index) := by
  refine (arg_noOverflow args index).bind fun value => ?_
  cases value with
  | int n => exact .ok _
  | float | str | nil | void => exact fun _ same => by cases same

theorem floatArg_noOverflow : NoOverflow (floatArg args index) := by
  refine (arg_noOverflow args index).bind fun value => ?_
  cases value with
  | float x => exact .ok _
  | int | str | nil | void => exact fun _ same => by cases same

theorem strArg_noOverflow : NoOverflow (strArg args index) := by
  refine (arg_noOverflow args index).bind fun value => ?_
  cases value with
  | str text => exact .ok _
  | int | float | nil | void => exact fun _ same => by cases same

theorem placesText_noOverflow (native : Native) {kind : RuntimeErrorKind}
    (stopped : placesText native args = .error (.error kind)) (limit : Nat) :
    kind ≠ .stackOverflow limit := by
  have atFloat := floatArg_noOverflow args 0 limit
  have atInt := intArg_noOverflow args 1 limit
  unfold placesText at stopped
  rintro rfl
  cases float : floatArg args 0 with
  | error kind =>
    rw [float] at stopped
    cases stopped
    exact atFloat float
  | ok x =>
    cases int : intArg args 1 with
    | error kind =>
      rw [float, int] at stopped
      cases stopped
      exact atInt int
    | ok precision =>
      simp only [float, int, mapError_ok, bind, Except.bind] at stopped
      split at stopped
      · cases stopped
      · split at stopped <;> cases stopped

end Arguments

/-- The text with places, as the value or the line that a call makes of it. -/
theorem placesText_uniform (native : Native) (args : List Value) {call : Environment → NativeResult}
    (made : String → Effect) (harmless : ∀ text, (made text).NoOverflow)
    (failed : ∀ stop env, placesText native args = .error stop → call env = .error stop)
    (done : ∀ text env, placesText native args = .ok text → call env = (made text).result env) :
    Uniform call := by
  cases places : placesText native args with
  | ok text => exact ⟨made text, harmless text, fun env => done text env places⟩
  | error stop =>
    refine ⟨.stopped stop, ?_, fun env => failed stop env places⟩
    cases stop with
    | error kind => exact placesText_noOverflow args native places
    | fault f => trivial

theorem toInt_noOverflow (x : Float) : NoOverflow (toInt x) :=
  .ite (.ok _) fun _ same => by cases same

theorem substring_noOverflow (text : String) (start count : Int64) :
    NoOverflow (substring text start count) :=
  .ite (.ok _) fun _ same => by cases same

theorem parseInt_noOverflow (text : String) : NoOverflow (parseInt text) := by
  unfold parseInt
  split
  · exact .ok _
  · exact fun _ same => by cases same

theorem parseFloat_noOverflow (text : String) : NoOverflow (parseFloat text) := by
  unfold parseFloat
  split
  · exact .ok _
  · exact fun _ same => by cases same

theorem printedNumber_noOverflow (value : Value) : NoOverflow (printedNumber value) := by
  cases value with
  | int | float => exact .ok _
  | str | nil | void => exact fun _ same => by cases same

/-- The arguments settle what a call of a built-in function comes to, and the environment only whether
there is a line to read. -/
theorem call_uniform (native : Native) (args : List Value) : Uniform (native.call args) := by
  have ints (index : Nat) := intArg_noOverflow args index
  have floats (index : Nat) := floatArg_noOverflow args index
  have texts (index : Nat) := strArg_noOverflow args index
  cases native with
  | itos => exact answer_uniform ((ints 0).bind fun _ => .ok _)
  | ftoi => exact answer_uniform ((floats 0).bind fun _ => (toInt_noOverflow _).bind fun _ => .ok _)
  | itof => exact answer_uniform ((ints 0).bind fun _ => .ok _)
  | sconcat => exact answer_uniform ((texts 0).bind fun _ => (texts 1).bind fun _ => .ok _)
  | strlen =>
    exact answer_uniform ((texts 0).bind fun _ => (checkedInt_noOverflow _ _).bind fun _ => .ok _)
  | substr =>
    exact answer_uniform ((texts 0).bind fun _ => (ints 1).bind fun _ => (ints 2).bind fun _ =>
      (substring_noOverflow _ _ _).bind fun _ => .ok _)
  | stoi => exact answer_uniform ((texts 0).bind fun _ => (parseInt_noOverflow _).bind fun _ => .ok _)
  | stof =>
    exact answer_uniform ((texts 0).bind fun _ => (parseFloat_noOverflow _).bind fun _ => .ok _)
  | abs => exact answer_uniform ((ints 0).bind fun _ => (checkedInt_noOverflow _ _).bind fun _ => .ok _)
  | sqrt => exact answer_uniform ((floats 0).bind fun _ => .ok _)
  | pow =>
    exact answer_uniform ((ints 0).bind fun _ => (ints 1).bind fun _ =>
      (intPow_noOverflow _ _).bind fun _ => .ok _)
  | min | max => exact answer_uniform ((ints 0).bind fun _ => (ints 1).bind fun _ => .ok _)
  | prints => exact printLine_uniform (texts 0)
  | print => exact printLine_uniform ((arg_noOverflow args 0).bind printedNumber_noOverflow)
  | input => exact ⟨.reading, trivial, call_input args⟩
  | ftos =>
    refine placesText_uniform .ftos args (fun text => .given (.str text)) (fun _ => trivial) ?_ ?_
    · exact fun stop env places => by rw [call_ftos, places]; rfl
    · exact fun text env places => by rw [call_ftos, places]; rfl
  | printf =>
    refine placesText_uniform .printf args .printed (fun _ => trivial) ?_ ?_
    · exact fun stop env places => by rw [call_printf, places]; rfl
    · exact fun text env places => by rw [call_printf, places]; rfl

namespace Effect

theorem leads {env after : Environment} {value : Value} {effect : Effect}
    (made : effect.result env = .ok (value, after)) : env.Leads after := by
  cases effect with
  | given value =>
    cases made
    exact .refl env
  | printed line =>
    cases made
    exact .print env line
  | stopped stop => cases made
  | reading =>
    cases read : env.read with
    | none =>
      rw [result, read] at made
      cases made
    | some next =>
      rw [result, read] at made
      cases made
      exact .read read

end Effect

end Native

end Lu
