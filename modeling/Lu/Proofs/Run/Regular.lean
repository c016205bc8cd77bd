import Lu.Proofs.Except
import Lu.Proofs.Run.Actions
import Lu.Proofs.Run.OperatorTable
import Lu.Proofs.Run.Watched
import Mathlib.Data.List.Forall2

namespace Lu

/-!
How operators and built-in functions end. Given operands of the right types they give a value of the
type that the checker expects, or one of the errors that no checker can foresee.
-/

/-- The errors that a run can end in. With wrong types about (unless `strict`) a value can be of no
use, or a function end without a result; what names mean and where jumps go is right in any case. -/
def RuntimeErrorKind.Permitted (strict : Prop) : RuntimeErrorKind → Prop
  | .divisionByZero | .moduloByZero | .integerOverflow _ | .inputExhausted | .nativeFailed ..
  | .stackOverflow _ => True
  | .typeMismatch _ | .missingReturn _ => ¬ strict
  | .undefinedVariable _ | .undefinedFunction _ | .duplicateDefinition _ | .internal _ => False

/-- The attempt gives what is promised, or ends in a permitted error. -/
def Regular {α : Type} (strict : Prop) (result : Except RuntimeErrorKind α) (post : α → Prop) :
    Prop :=
  match result with
  | .ok value => post value
  | .error kind => kind.Permitted strict

namespace Regular

variable {α β : Type} {strict : Prop} {post : α → Prop} {later : β → Prop}

theorem bind {first : Except RuntimeErrorKind α} {next : α → Except RuntimeErrorKind β}
    (atFirst : Regular strict first post)
    (atNext : ∀ value, post value → Regular strict (next value) later) :
    Regular strict (first >>= next) later := by
  cases first with
  | ok value => exact atNext value atFirst
  | error kind => exact atFirst

theorem ite {condition : Prop} [Decidable condition] {first second : Except RuntimeErrorKind α}
    (atFirst : Regular strict first post) (atSecond : Regular strict second post) :
    Regular strict (if condition then first else second) post := by
  split
  · exact atFirst
  · exact atSecond

end Regular

section Operators

variable {strict : Prop}

theorem RuntimeErrorKind.Arithmetic.permitted {kind : RuntimeErrorKind} (arithmetic : kind.Arithmetic) :
    kind.Permitted strict := by
  cases arithmetic <;> trivial

theorem Computes.regular {α : Type} {post : α → Prop} {result : Except RuntimeErrorKind α}
    (computes : Computes post result) : Regular strict result post := by
  cases computes with
  | value promised => exact promised
  | error arithmetic => exact arithmetic.permitted

theorem checkedInt_regular (operation : String) (result : Int) :
    Regular strict (checkedInt operation result) fun _ => True :=
  (checkedInt_computes operation result).regular

theorem intPow_regular (base exponent : Int64) :
    Regular strict (intPow base exponent) fun _ => True :=
  (intPow_computes base exponent).regular

theorem BinaryOp.resultType?_not_void {op : BinaryOp} {left right ty : Ty}
    (typed : op.resultType? left right = some ty) : left ≠ .void ∧ right ≠ .void := by
  constructor
  · rintro rfl
    cases op <;> cases typed
  · rintro rfl
    cases left <;> cases op <;> cases typed

theorem UnaryOp.resultType?_not_void {op : UnaryOp} {operand ty : Ty}
    (typed : op.resultType? operand = some ty) : operand ≠ .void := by
  rintro rfl
  cases op <;> cases typed

/-- What an operator gives for two values has the type that the checker finds for their types, if it
finds one. -/
theorem BinaryOp.eval_regular (op : BinaryOp) (left right : Value)
    (typed : strict → (op.resultType? left.type right.type).isSome = true) :
    Regular strict (op.eval left right) fun value =>
      ∀ ty, op.resultType? left.type right.type = some ty → value.type = ty := by
  have ends := op.eval_ends left right
  generalize op.resultType? left.type right.type = entry at typed ends ⊢
  generalize op.eval left right = result at ends ⊢
  cases ends with
  | value type =>
    intro ty found
    cases found
    exact type
  | arithmetic _ _ _ kind => exact kind.permitted
  | equality =>
    intro ty found
    cases found
  | clash => exact fun holds => Bool.noConfusion (typed holds)

theorem UnaryOp.eval_regular (op : UnaryOp) (operand : Value)
    (typed : strict → (op.resultType? operand.type).isSome = true) :
    Regular strict (op.eval operand) fun value =>
      ∀ ty, op.resultType? operand.type = some ty → value.type = ty := by
  have ends := op.eval_ends operand
  generalize op.resultType? operand.type = entry at typed ends ⊢
  generalize op.eval operand = result at ends ⊢
  cases ends with
  | value type =>
    intro ty found
    cases found
    exact type
  | overflow => trivial
  | clash => exact fun holds => Bool.noConfusion (typed holds)

end Operators

/-- The arguments have types that the parameters of the function take, one for each. -/
def Native.Accepts (native : Native) (args : List Value) : Prop :=
  List.Forall₂ (fun value param => param.accepts value.type = true) args native.signature.params

/-- Only the formatter can stop the interpreter itself. -/
def NativeStop.Permitted (strict : Prop) : NativeStop → Prop
  | .error kind => kind.Permitted strict
  | .fault f => f = .formatOutOfRange

/-- A call of a built-in function gives a value of its result type, or ends in a permitted way. -/
def NativeResult.Regular (strict : Prop) (result : NativeResult) (ty : Ty) : Prop :=
  match result with
  | .ok (value, _) => value.type = ty
  | .error stop => stop.Permitted strict

namespace Native

variable {strict : Prop} {native : Native} {args : List Value} {env : Environment}

theorem arg_accepted (accepts : native.Accepts args) {index : Nat} {param : NativeParam}
    (atParam : native.signature.params[index]? = some param) :
    ∃ value, args[index]? = some value ∧ param.accepts value.type = true := by
  obtain ⟨length, each⟩ := List.forall₂_iff_get.mp accepts
  obtain ⟨bound, same⟩ := List.getElem?_eq_some_iff.mp atParam
  have within : index < args.length := length ▸ bound
  refine ⟨args.get ⟨index, within⟩, List.getElem?_eq_getElem within, ?_⟩
  have accepted := each index within bound
  rw [← same]
  exact accepted

theorem arg_regular (index : Nat) (param : NativeParam)
    (given : strict → native.Accepts args)
    (atParam : native.signature.params[index]? = some param) :
    Lu.Regular strict (arg args index) fun value => strict → param.accepts value.type = true := by
  unfold arg
  cases atArg : args[index]? with
  | some value =>
    intro holds
    obtain ⟨value', atArg', accepted⟩ := arg_accepted (given holds) atParam
    cases atArg.symm.trans atArg'
    exact accepted
  | none =>
    intro holds
    obtain ⟨value', atArg', -⟩ := arg_accepted (given holds) atParam
    cases atArg.symm.trans atArg'

theorem intArg_regular (index : Nat) (name : String) (given : strict → native.Accepts args)
    (atParam : native.signature.params[index]? = some ⟨name, [.int]⟩) :
    Lu.Regular strict (intArg args index) fun _ => True := by
  refine (arg_regular index _ given atParam).bind fun value accepted => ?_
  match value, accepted with
  | .int n, _ => trivial
  | .float _, accepted | .str _, accepted | .void, accepted | .nil, accepted =>
    exact fun holds => Bool.noConfusion (accepted holds)

theorem floatArg_regular (index : Nat) (name : String) (given : strict → native.Accepts args)
    (atParam : native.signature.params[index]? = some ⟨name, [.float]⟩) :
    Lu.Regular strict (floatArg args index) fun _ => True := by
  refine (arg_regular index _ given atParam).bind fun value accepted => ?_
  match value, accepted with
  | .float x, _ => trivial
  | .int _, accepted | .str _, accepted | .void, accepted | .nil, accepted =>
    exact fun holds => Bool.noConfusion (accepted holds)

theorem strArg_regular (index : Nat) (name : String) (given : strict → native.Accepts args)
    (atParam : native.signature.params[index]? = some ⟨name, [.str]⟩) :
    Lu.Regular strict (strArg args index) fun _ => True := by
  refine (arg_regular index _ given atParam).bind fun value accepted => ?_
  match value, accepted with
  | .str text, _ => trivial
  | .int _, accepted | .float _, accepted | .void, accepted | .nil, accepted =>
    exact fun holds => Bool.noConfusion (accepted holds)

theorem answer_regular {attempt : Except RuntimeErrorKind Value} {ty : Ty}
    (regular : Lu.Regular strict attempt fun value => value.type = ty) :
    ((answer attempt).result env).Regular strict ty := by
  cases attempt with
  | ok value => exact regular
  | error kind => exact regular

theorem printLine_regular {attempt : Except RuntimeErrorKind String} {post : String → Prop}
    (regular : Lu.Regular strict attempt post) :
    ((printLine (attempt.mapError .error)).result env).Regular strict .void := by
  cases attempt with
  | ok text => exact rfl
  | error kind => exact regular

/-- Of a text with places a call makes its result, if there is one. -/
theorem placesText_regular {failing : Native} {next : String → Value × Environment} {ty : Ty}
    {first second : String} (given : strict → native.Accepts args)
    (params : native.signature.params = [⟨first, [.float]⟩, ⟨second, [.int]⟩])
    (result : ∀ text, (next text).1.type = ty) :
    NativeResult.Regular strict (do return next (← placesText failing args)) ty := by
  have atFirst := floatArg_regular 0 first given (by rw [params]; rfl)
  have atSecond := intArg_regular 1 second given (by rw [params]; rfl)
  unfold placesText
  cases number : floatArg args 0 with
  | error kind => rw [number] at atFirst; exact atFirst
  | ok x =>
    cases places : intArg args 1 with
    | error kind => rw [places] at atSecond; exact atSecond
    | ok precision =>
      simp only [mapError_ok, bind, Except.bind]
      by_cases negative : precision.toInt < 0
      · simp only [if_pos negative]
        trivial
      · by_cases large : mostPlaces < precision.toInt.toNat
        · simp only [if_neg negative, if_pos large]
          rfl
        · simp only [if_neg negative, if_neg large]
          exact result _

theorem toInt_regular (x : Float) : Lu.Regular strict (toInt x) fun _ => True :=
  .ite trivial trivial

theorem substring_regular (text : String) (start count : Int64) :
    Lu.Regular strict (substring text start count) fun _ => True :=
  .ite trivial trivial

theorem parseInt_regular (text : String) : Lu.Regular strict (parseInt text) fun _ => True := by
  unfold parseInt
  split <;> trivial

theorem parseFloat_regular (text : String) : Lu.Regular strict (parseFloat text) fun _ => True := by
  unfold parseFloat
  split <;> trivial

theorem printedNumber_regular {value : Value}
    (number : strict → value.type = .int ∨ value.type = .float) :
    Lu.Regular strict (printedNumber value) fun _ => True := by
  match value, number with
  | .int _, _ | .float _, _ => trivial
  | .str _, number | .void, number | .nil, number =>
    intro holds
    rcases number holds with type | type <;> cases type

/-- A built-in function keeps the promise of its signature. -/
theorem call_regular (native : Native) (given : strict → native.Accepts args) :
    (native.call args env).Regular strict native.signature.result := by
  have int := fun index name => intArg_regular index name given
  have float := fun index name => floatArg_regular index name given
  have str := fun index name => strArg_regular index name given
  cases native with
  | itos => exact answer_regular <| (int 0 "i" rfl).bind fun _ _ => rfl
  | ftos =>
    rw [call_ftos]
    exact placesText_regular given rfl fun _ => rfl
  | ftoi =>
    exact answer_regular <| (float 0 "f" rfl).bind fun x _ => (toInt_regular x).bind fun _ _ => rfl
  | itof => exact answer_regular <| (int 0 "i" rfl).bind fun _ _ => rfl
  | sconcat =>
    exact answer_regular <| (str 0 "s1" rfl).bind fun _ _ => (str 1 "s2" rfl).bind fun _ _ => rfl
  | strlen =>
    exact answer_regular <| (str 0 "s" rfl).bind fun _ _ => (checkedInt_regular ..).bind fun _ _ => rfl
  | substr =>
    exact answer_regular <| (str 0 "s" rfl).bind fun text _ => (int 1 "from" rfl).bind fun start _ =>
      (int 2 "len" rfl).bind fun count _ => (substring_regular text start count).bind fun _ _ => rfl
  | stoi =>
    exact answer_regular <| (str 0 "s" rfl).bind fun text _ =>
      (parseInt_regular text).bind fun _ _ => rfl
  | stof =>
    exact answer_regular <| (str 0 "s" rfl).bind fun text _ =>
      (parseFloat_regular text).bind fun _ _ => rfl
  | input =>
    rw [call_input]
    cases env.read with
    | none => trivial
    | some found => exact rfl
  | printf =>
    rw [call_printf]
    exact placesText_regular given rfl fun _ => rfl
  | prints => exact printLine_regular (str 0 "s" rfl)
  | print =>
    have number := arg_regular 0 ⟨"n", [.int, .float]⟩ given rfl
    refine printLine_regular (number.bind fun value accepted => printedNumber_regular fun holds => ?_)
    have known := accepted holds
    cases value with
    | int _ => exact .inl rfl
    | float _ => exact .inr rfl
    | str _ | void | nil => cases known
  | abs =>
    exact answer_regular <| (int 0 "x" rfl).bind fun _ _ => (checkedInt_regular ..).bind fun _ _ => rfl
  | sqrt => exact answer_regular <| (float 0 "x" rfl).bind fun _ _ => rfl
  | pow =>
    exact answer_regular <| (int 0 "x" rfl).bind fun base _ => (int 1 "y" rfl).bind fun exponent _ =>
      (intPow_regular base exponent).bind fun _ _ => rfl
  | min | max =>
    exact answer_regular <| (int 0 "x" rfl).bind fun _ _ => (int 1 "y" rfl).bind fun _ _ => rfl

/-- Built-in functions are told apart by their names. -/
theorem ofName?_name (native : Native) : ofName? native.name = some native := by
  cases native <;> decide

end Native

end Lu
