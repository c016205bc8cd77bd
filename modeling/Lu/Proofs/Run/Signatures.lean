import Lu.Proofs.Run.Actions
import Lu.Proofs.Run.Power
import Lu.Proofs.Run.Regular
import Lu.Run.Machine

namespace Lu

/-!
Built-in functions honour their signatures: with arguments that the signature accepts, a call gives a
value of its result type or one of the errors of the function, and it reads and prints no more than the
function is there for. Only a precision beyond what the formatter takes stops the interpreter.
-/

namespace Native

/-- The side of the environment that a function works on. -/
inductive Channel where
  | none
  | output
  | input

def channel : Native → Channel
  | .print | .prints | .printf => .output
  | .input => .input
  | .itos | .ftos | .ftoi | .itof | .sconcat | .strlen | .substr | .stoi | .stof
  | .abs | .sqrt | .pow | .min | .max => .none

/-- The errors that a call of the function can end in. -/
inductive Raises (native : Native) : RuntimeErrorKind → Prop
  | failed (failure : NativeFailure) : Raises native (.nativeFailed native.name failure)
  | overflow (operation : String) : Raises native (.integerOverflow operation)
  | division : native = .pow → Raises native .divisionByZero
  | exhausted : native = .input → Raises native .inputExhausted

/-- How a call of the function can end: with a value of its result type, the environment as it was
but for the one line that the function prints or reads, or with one of its errors. -/
inductive Ends (native : Native) (env : Environment) : NativeResult → Prop
  | silent {value : Value} : native.channel = .none → value.type = native.signature.result →
      Ends native env (.ok (value, env))
  | printed {line : String} : native.channel = .output → native.signature.result = .void →
      Ends native env (.ok (.void, env.print line))
  | read {line : String} {rest : List String} : native.channel = .input →
      native.signature.result = .str → env.input = line :: rest →
      Ends native env (.ok (.str line, { env with input := rest }))
  | error {kind : RuntimeErrorKind} : native.Raises kind → Ends native env (.error (.error kind))

/-- More places are asked for than the formatter can write. -/
def Overprecise (native : Native) (args : List Value) : Prop :=
  (native = .ftos ∨ native = .printf) ∧
    ∃ x precision, args = [.float x, .int precision] ∧ (mostPlaces : Int) < precision.toInt

section Arguments

variable {native : Native} {args : List Value}

theorem intArg_accepted (index : Nat) (name : String)
    (accepts : native.Accepts args) (atParam : native.signature.params[index]? = some ⟨name, [.int]⟩) :
    ∃ n, intArg args index = .ok n := by
  obtain ⟨value, atArg, accepted⟩ := arg_accepted accepts atParam
  cases value with
  | int n => exact ⟨n, by rw [intArg, arg, atArg]; rfl⟩
  | float | str | void | nil => cases accepted

theorem floatArg_accepted (index : Nat) (name : String)
    (accepts : native.Accepts args) (atParam : native.signature.params[index]? = some ⟨name, [.float]⟩) :
    ∃ x, floatArg args index = .ok x := by
  obtain ⟨value, atArg, accepted⟩ := arg_accepted accepts atParam
  cases value with
  | float x => exact ⟨x, by rw [floatArg, arg, atArg]; rfl⟩
  | int | str | void | nil => cases accepted

theorem strArg_accepted (index : Nat) (name : String)
    (accepts : native.Accepts args) (atParam : native.signature.params[index]? = some ⟨name, [.str]⟩) :
    ∃ text, strArg args index = .ok text := by
  obtain ⟨value, atArg, accepted⟩ := arg_accepted accepts atParam
  cases value with
  | str text => exact ⟨text, by rw [strArg, arg, atArg]; rfl⟩
  | int | float | void | nil => cases accepted

theorem printedNumber_accepted (index : Nat) (name : String)
    (accepts : native.Accepts args)
    (atParam : native.signature.params[index]? = some ⟨name, [.int, .float]⟩) :
    ∃ line, arg args index >>= printedNumber = .ok line := by
  obtain ⟨value, atArg, accepted⟩ := arg_accepted accepts atParam
  cases value with
  | int n => exact ⟨_, by rw [arg, atArg]; rfl⟩
  | float x => exact ⟨_, by rw [arg, atArg]; rfl⟩
  | str | void | nil => cases accepted

/-- The arguments of the two functions that write a float with places. -/
theorem places_accepted {first second : String} (accepts : native.Accepts args)
    (params : native.signature.params = [⟨first, [.float]⟩, ⟨second, [.int]⟩]) :
    ∃ x precision, args = [.float x, .int precision] := by
  rw [Accepts, params] at accepts
  cases accepts with
  | cons number rest =>
    cases rest with
    | cons places none =>
      cases none
      rename_i value other
      cases value with
      | float x =>
        cases other with
        | int precision => exact ⟨x, precision, rfl⟩
        | float | str | void | nil => cases places
      | int | str | void | nil => cases number

end Arguments

section Errors

variable {native : Native} {kind : RuntimeErrorKind} {text : String}

theorem checkedInt_raises {operation : String} {result : Int}
    (failed : checkedInt operation result = .error kind) : native.Raises kind := by
  unfold checkedInt at failed
  split at failed
  · cases failed
  · cases failed
    exact .overflow operation

theorem toInt_raises {x : Float} (failed : toInt x = .error kind) : ftoi.Raises kind := by
  simp only [toInt] at failed
  split at failed
  · cases failed
  · cases failed
    exact .failed _

theorem substring_raises {start count : Int64} (failed : substring text start count = .error kind) :
    substr.Raises kind := by
  simp only [substring] at failed
  split at failed
  · cases failed
  · cases failed
    exact .failed _

theorem parseInt_raises (failed : parseInt text = .error kind) : stoi.Raises kind := by
  unfold parseInt at failed
  split at failed
  · cases failed
  · cases failed
    exact .failed _

theorem parseFloat_raises (failed : parseFloat text = .error kind) : stof.Raises kind := by
  unfold parseFloat at failed
  split at failed
  · cases failed
  · cases failed
    exact .failed _

theorem intPow_raises {base exponent : Int64} (failed : intPow base exponent = .error kind) :
    pow.Raises kind := by
  by_cases undefined : base.toInt = 0 ∧ exponent.toInt < 0
  · have outcome := intPow_undefined undefined.1 undefined.2
    rw [failed] at outcome
    cases outcome
    exact .division rfl
  · rw [intPow_eq undefined] at failed
    exact checkedInt_raises failed

end Errors

section Calls

variable {native : Native} {args : List Value} {env : Environment}

theorem answer_ends {α : Type} {attempt : Except RuntimeErrorKind α} {made : α → Value}
    (channel : native.channel = .none)
    (type : ∀ a, (made a).type = native.signature.result)
    (raises : ∀ kind, attempt = .error kind → native.Raises kind) :
    native.Ends env ((answer (do return made (← attempt))).result env) := by
  cases attempt with
  | ok a => exact .silent channel (type a)
  | error kind => exact .error (raises kind rfl)

/-- A text with places is written, or the precision is out of range on one side or the other. -/
theorem placesText_cases (native : Native) (x : Float) (precision : Int64) :
    precision.toInt ≤ mostPlaces ∧
        ((∃ text, placesText native [.float x, .int precision] = .ok text) ∨
          ∃ failure, placesText native [.float x, .int precision] =
            .error (.error (.nativeFailed native.name failure))) ∨
      (mostPlaces : Int) < precision.toInt ∧
        placesText native [.float x, .int precision] = .error (.fault .formatOutOfRange) := by
  have unfolded : placesText native [.float x, .int precision] =
      if precision.toInt < 0 then
        .error (.error (.nativeFailed native.name (.negativePrecision precision)))
      else if mostPlaces < precision.toInt.toNat then .error (.fault .formatOutOfRange)
      else .ok (writePlaces precision.toInt.toNat x) := rfl
  rw [unfolded]
  by_cases negative : precision.toInt < 0
  · rw [if_pos negative]
    exact .inl ⟨by omega, .inr ⟨_, rfl⟩⟩
  · rw [if_neg negative]
    by_cases large : mostPlaces < precision.toInt.toNat
    · rw [if_pos large]
      exact .inr ⟨by omega, rfl⟩
    · rw [if_neg large]
      exact .inl ⟨by omega, .inl ⟨_, rfl⟩⟩

theorem overprecise_iff {x : Float} {precision : Int64} (writes : native = .ftos ∨ native = .printf) :
    native.Overprecise [.float x, .int precision] ↔ (mostPlaces : Int) < precision.toInt := by
  constructor
  · rintro ⟨-, _, _, same, large⟩
    cases same
    exact large
  · exact fun large => ⟨writes, x, precision, rfl, large⟩

/-- A function that writes a float with places makes its result of the text, if there is one. -/
theorem places_ends {next : String → Value × Environment} {first second : String}
    (writes : native = .ftos ∨ native = .printf) (accepts : native.Accepts args)
    (params : native.signature.params = [⟨first, [.float]⟩, ⟨second, [.int]⟩])
    (moderate : ¬ native.Overprecise args) (done : ∀ text, native.Ends env (.ok (next text))) :
    native.Ends env (do return next (← placesText native args)) := by
  obtain ⟨x, precision, rfl⟩ := places_accepted accepts params
  rw [overprecise_iff writes] at moderate
  rcases placesText_cases native x precision with ⟨-, ⟨text, written⟩ | ⟨failure, negative⟩⟩ | ⟨large, -⟩
  · rw [written]
    exact done text
  · rw [negative]
    exact .error (.failed failure)
  · exact absurd large moderate

theorem call_overprecise (overprecise : native.Overprecise args) (env : Environment) :
    native.call args env = .error (.fault .formatOutOfRange) := by
  obtain ⟨writes, x, precision, rfl, large⟩ := overprecise
  rcases placesText_cases native x precision with ⟨small, -⟩ | ⟨-, outOfRange⟩
  · omega
  · rcases writes with rfl | rfl
    · rw [call_ftos, outOfRange]
      rfl
    · rw [call_printf, outOfRange]
      rfl

/-- One case for each function: its arguments are there, and at most one step fails on them. -/
theorem call_ends (accepts : native.Accepts args) (moderate : ¬ native.Overprecise args)
    (env : Environment) : native.Ends env (native.call args env) := by
  have int := fun index name => intArg_accepted index name accepts
  have float := fun index name => floatArg_accepted index name accepts
  have str := fun index name => strArg_accepted index name accepts
  cases native with
  | itos =>
    obtain ⟨n, first⟩ := int 0 "i" rfl
    simp only [call, run, first]
    exact .silent rfl rfl
  | ftos =>
    rw [call_ftos]
    exact places_ends (.inl rfl) accepts rfl moderate fun text => .silent rfl rfl
  | ftoi =>
    obtain ⟨x, first⟩ := float 0 "f" rfl
    simp only [call, run, first]
    exact answer_ends rfl (fun _ => rfl) fun _ => toInt_raises
  | itof =>
    obtain ⟨n, first⟩ := int 0 "i" rfl
    simp only [call, run, first]
    exact .silent rfl rfl
  | sconcat =>
    obtain ⟨front, first⟩ := str 0 "s1" rfl
    obtain ⟨back, second⟩ := str 1 "s2" rfl
    simp only [call, run, first, second]
    exact .silent rfl rfl
  | strlen =>
    obtain ⟨text, first⟩ := str 0 "s" rfl
    simp only [call, run, first]
    exact answer_ends rfl (fun _ => rfl) fun _ => checkedInt_raises
  | substr =>
    obtain ⟨text, first⟩ := str 0 "s" rfl
    obtain ⟨start, second⟩ := int 1 "from" rfl
    obtain ⟨count, third⟩ := int 2 "len" rfl
    simp only [call, run, first, second, third]
    exact answer_ends rfl (fun _ => rfl) fun _ => substring_raises
  | stoi =>
    obtain ⟨text, first⟩ := str 0 "s" rfl
    simp only [call, run, first]
    exact answer_ends rfl (fun _ => rfl) fun _ => parseInt_raises
  | stof =>
    obtain ⟨text, first⟩ := str 0 "s" rfl
    simp only [call, run, first]
    exact answer_ends rfl (fun _ => rfl) fun _ => parseFloat_raises
  | input =>
    obtain ⟨lines, output⟩ := env
    cases lines with
    | nil => exact .error (.exhausted rfl)
    | cons line rest => exact .read rfl rfl rfl
  | printf =>
    rw [call_printf]
    exact places_ends (.inr rfl) accepts rfl moderate fun text => .printed rfl rfl
  | prints =>
    obtain ⟨text, first⟩ := str 0 "s" rfl
    simp only [call, run, first]
    exact .printed rfl rfl
  | print =>
    obtain ⟨line, first⟩ := printedNumber_accepted 0 "n" accepts rfl
    simp only [call, run, first]
    exact .printed rfl rfl
  | abs =>
    obtain ⟨n, first⟩ := int 0 "x" rfl
    simp only [call, run, first]
    exact answer_ends rfl (fun _ => rfl) fun _ => checkedInt_raises
  | sqrt =>
    obtain ⟨x, first⟩ := float 0 "x" rfl
    simp only [call, run, first]
    exact .silent rfl rfl
  | pow =>
    obtain ⟨base, first⟩ := int 0 "x" rfl
    obtain ⟨exponent, second⟩ := int 1 "y" rfl
    simp only [call, run, first, second]
    exact answer_ends rfl (fun _ => rfl) fun _ => intPow_raises
  | min | max =>
    obtain ⟨a, first⟩ := int 0 "x" rfl
    obtain ⟨b, second⟩ := int 1 "y" rfl
    simp only [call, run, first, second]
    exact .silent rfl rfl

/-- As an expression of a program, a call that ends in an error leaves the machine as it was. -/
theorem callNative_eq_failed {kind : RuntimeErrorKind} {machine : Machine}
    (failed : native.call args machine.env = .error (.error kind)) (span : Span) :
    Run.callNative native.name args span machine = .failed { kind, span } machine := by
  simp only [Run.callNative_eq, ofName?_name, failed]

end Calls

end Native

/-- With arguments that its signature accepts, a built-in function ends as the signature says in any
environment, and an error leaves the lines read and printed as they were. There is one exception: the
two functions that write a float with places stop the interpreter just if the places asked for are more
than the formatter can write. -/
theorem native_honours_signature {native : Native} {args : List Value} (accepts : native.Accepts args) :
    (¬ native.Overprecise args → ∀ env, native.Ends env (native.call args env)) ∧
    (native.Overprecise args → ∀ env, native.call args env = .error (.fault .formatOutOfRange)) ∧
    ∀ machine span kind, native.call args machine.env = .error (.error kind) →
      Run.callNative native.name args span machine = .failed { kind, span } machine :=
  ⟨fun moderate => Native.call_ends accepts moderate, Native.call_overprecise,
    fun _ span _ failed => Native.callNative_eq_failed failed span⟩

/-- The most places that can be asked for: the call ends as its signature says, with one line. -/
theorem most_places_are_written : Native.printf.Accepts [.float 0.5, .int 65535] ∧
    ¬ Native.printf.Overprecise [.float 0.5, .int 65535] ∧
    Native.printf.Ends {} (Native.printf.call [.float 0.5, .int 65535] {}) ∧
    ∃ line, Native.printf.call [.float 0.5, .int 65535] {} = .ok (.void, ⟨[], #[line]⟩) := by
  have accepts : Native.printf.Accepts [.float 0.5, .int 65535] := .cons rfl (.cons rfl .nil)
  have moderate : ¬ Native.printf.Overprecise [.float 0.5, .int 65535] := by
    rw [Native.overprecise_iff (.inr rfl)]
    decide
  have ends := (native_honours_signature accepts).1 moderate {}
  have written : Native.printf.call [.float 0.5, .int 65535] {} =
      .ok (.void, ⟨[], #[writePlaces 65535 0.5]⟩) := rfl
  exact ⟨accepts, moderate, ends, _, written⟩

/-- One place more, and there is neither text nor error. -/
theorem one_place_more_stops_interpreter : Native.printf.Accepts [.float 0.5, .int 65536] ∧
    Native.printf.call [.float 0.5, .int 65536] {} = .error (.fault .formatOutOfRange) :=
  ⟨.cons rfl (.cons rfl .nil), rfl⟩

end Lu
