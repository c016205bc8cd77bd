import Lu.Proofs.Check.Accepted

namespace Lu

/-!
What a checked program can rely on when it runs: with the first two steps of the analysis that names
are found and jumps are caught, with all of them that values have their types.
-/

/-- Errors that depend on the values of a run. -/
def RuntimeErrorKind.OfValues : RuntimeErrorKind → Prop
  | .divisionByZero | .moduloByZero | .integerOverflow _ | .inputExhausted | .nativeFailed ..
  | .stackOverflow _ => True
  | _ => False

/-- Errors that come of wrong types. -/
def RuntimeErrorKind.OfTypes : RuntimeErrorKind → Prop
  | .typeMismatch _ | .missingReturn _ => True
  | _ => False

/-- A run that is over has ended well, in an error of the given kinds, or in the formatter. -/
def Outcome.EndsIn {α : Type} (kinds : RuntimeErrorKind → Prop) : Outcome α → Prop
  | .done _ _ | .outOfFuel => True
  | .failed e _ => kinds e.kind
  | .faulted f _ => f = .formatOutOfRange

theorem RuntimeErrorKind.permitted_iff {strict : Prop} {kind : RuntimeErrorKind} :
    kind.Permitted strict ↔ kind.OfValues ∨ ¬ strict ∧ kind.OfTypes := by
  cases kind <;> simp [Permitted, OfValues, OfTypes]

/-- The machine that a run leaves, if it comes to an end. -/
def Outcome.after? {α : Type} : Outcome α → Option Machine
  | .done _ after | .failed _ after => some after
  | .faulted _ _ | .outOfFuel => none

section Runs

variable {strict : Prop} {p : Program} {machine : Machine}

theorem Run.program_idle {fuel : Nat} {after : Machine} {value : Value}
    (run : Run.program fuel p machine = .done value after) : after.operands = [] := by
  unfold Run.program at run
  rw [Run.bind_apply] at run
  cases ran : topLevel (stmt fuel) .void p.statements machine with
  | failed | faulted | outOfFuel =>
    rw [ran] at run
    cases run
  | done last machine' =>
    rw [ran] at run
    obtain ⟨context, operands, calls, env⟩ := machine'
    cases operands with
    | nil =>
      cases run
      rfl
    | cons left operands => cases run

/-- A run that comes to an end leaves the machine ready for another one, whatever the program. -/
theorem Machine.evaluate_idle {fuel : Nat} {after : Machine} (idle : machine.operands = [])
    (ended : (machine.evaluate fuel p).after? = some after) : after.operands = [] := by
  obtain ⟨context, operands, calls, env⟩ := machine
  obtain rfl : operands = [] := idle
  cases run : Run.program fuel p ⟨Context.initial, [], calls, env⟩ with
  | done value machine' =>
    simp only [Machine.evaluate, run] at ended
    cases ended
    exact Run.program_idle run
  | failed e machine' =>
    simp only [Machine.evaluate, run] at ended
    cases ended
    rfl
  | faulted | outOfFuel =>
    simp only [Machine.evaluate, run] at ended
    cases ended

theorem Machine.evaluate_endsIn (sound : p.Sound strict) (fuel : Nat) (idle : machine.operands = []) :
    (machine.evaluate fuel p).EndsIn fun kind => kind.OfValues ∨ ¬ strict ∧ kind.OfTypes := by
  have ends := machine.watch_ends sound fuel idle
  rw [← machine.watch_fst]
  generalize machine.watch fuel p = watched at ends ⊢
  obtain ⟨outcome, history⟩ := watched
  cases outcome with
  | done | outOfFuel => trivial
  | failed e after => exact RuntimeErrorKind.permitted_iff.mp ends.2
  | faulted f after => exact ends.2

theorem Machine.watch_fine (sound : p.Sound strict) (fuel : Nat) (idle : machine.operands = []) :
    (machine.watch fuel p).2.Fine strict := by
  have ends := machine.watch_ends sound fuel idle
  generalize machine.watch fuel p = watched at ends ⊢
  obtain ⟨outcome, history⟩ := watched
  cases outcome with
  | done | failed | faulted => exact ends.1
  | outOfFuel => exact ends

theorem Outcome.EndsIn.mono {α : Type} {fewer more : RuntimeErrorKind → Prop} {outcome : Outcome α}
    (ends : outcome.EndsIn fewer) (imp : ∀ kind, fewer kind → more kind) : outcome.EndsIn more := by
  cases outcome with
  | failed e after => exact imp _ ends
  | done | faulted | outOfFuel => exact ends

/-- A search ends in a scope that holds the name just if it passes no other one before. -/
theorem Context.findScope_iff {context : Context} {layout : Layout} {name : String}
    {s : VariableSymbol} {before after : List Nat} {index : Nat}
    (owners : ∀ i, (context.scopes[i]?).any (·.contains name) = (layout.owner? i name).isSome)
    (visible : context.visibleScopes = before ++ index :: after)
    (owned : layout.owner? index name = some s)
    (first : ∀ nearer ∈ before, layout.owner? nearer name ≠ some s) :
    context.findScope (·.contains name) = some index ↔
      ∀ nearer ∈ before, layout.owner? nearer name = none := by
  rw [findScope_eq, visible, List.find?_append]
  simp only [owners]
  constructor
  · intro found nearer member
    cases passed : before.find? fun i => (layout.owner? i name).isSome with
    | none => simpa using List.find?_eq_none.mp passed nearer member
    | some hit =>
      rw [passed] at found
      cases found
      exact (first index (List.mem_of_find?_eq_some passed) owned).elim
  · intro clear
    have passed : before.find? (fun i => (layout.owner? i name).isSome) = none :=
      List.find?_eq_none.mpr fun nearer member => by simp [clear nearer member]
    rw [passed, List.find?_cons_of_pos (by simp [owned])]
    rfl

end Runs

/-- Type safety. If no `let` captures a name of a function before it, a checked program fails only
for reasons that lie in its values, and every expression that its run evaluates has a value of its
type. -/
theorem checked_program_keeps_types {source : String} {p : Program}
    (checked : Source.checked source = .ok p) (uncaptured : p.uncaptured = true) (fuel : Nat)
    {machine : Machine} (idle : machine.operands = []) :
    (machine.watch fuel p).1 = machine.evaluate fuel p ∧
      (machine.evaluate fuel p).EndsIn RuntimeErrorKind.OfValues ∧
      ∀ e value ty, .evaluated e value ∈ (machine.watch fuel p).2.events →
        e.type.value? = some ty → ty ≠ .void → value.type = ty := by
  have sound : p.Sound True := Source.checked_sound checked fun _ => uncaptured
  refine ⟨machine.watch_fst fuel p,
    (machine.evaluate_endsIn sound fuel idle).mono fun kind allowed => ?_, ?_⟩
  · exact allowed.resolve_right fun wrong => wrong.1 trivial
  · intro e value ty member known notVoid
    exact machine.watch_fine sound fuel idle _ member trivial ty known notVoid

def factorialSource : String :=
  "fn f(n: int): int \x7b if (n == 0) \x7b return 1; \x7d return n * f(n - 1); \x7d print(f(5));"

/-- The lines that a run has printed when it comes to an end. -/
def Outcome.printed? {α : Type} (outcome : Outcome α) : Option (List String) :=
  outcome.after?.map (·.env.output.toList)

/-- The expression has been evaluated to an integer, as its type says. -/
def Event.isInteger : Event → Bool
  | .evaluated e (.int _) => e.type.value? == some .int
  | _ => false

/-- The run prints the factorial of five. Among the values on the way to it are integers. -/
theorem factorial_keeps_types : ∃ p, Source.checked factorialSource = .ok p ∧
    p.uncaptured = true ∧ ((Machine.fresh 10 {}).evaluate 100 p).printed? = some ["120"] ∧
    (∃ event ∈ ((Machine.fresh 10 {}).watch 100 p).2.events, event.isInteger = true) ∧
    ((Machine.fresh 10 {}).watch 100 p).1 = (Machine.fresh 10 {}).evaluate 100 p ∧
    ((Machine.fresh 10 {}).evaluate 100 p).EndsIn RuntimeErrorKind.OfValues ∧
    ∀ e value ty, .evaluated e value ∈ ((Machine.fresh 10 {}).watch 100 p).2.events →
      e.type.value? = some ty → ty ≠ .void → value.type = ty := by
  have accepted : (Source.checked factorialSource).toOption.any (fun p => p.uncaptured &&
      ((Machine.fresh 10 {}).evaluate 100 p).printed? == some ["120"] &&
      ((Machine.fresh 10 {}).watch 100 p).2.events.any Event.isInteger) = true := by
    decide +kernel
  obtain ⟨p, checked, accepted⟩ := ok_of_any accepted
  simp only [Bool.and_eq_true, beq_iff_eq, List.any_eq_true] at accepted
  obtain ⟨⟨uncaptured, printed⟩, evaluated⟩ := accepted
  exact ⟨p, checked, uncaptured, printed, evaluated,
    checked_program_keeps_types checked uncaptured 100 rfl⟩

/-- Whatever the types are: after the first two steps of the analysis every name is found, nothing is
declared twice, no jump goes astray, and every call finds the function that it was resolved to. -/
theorem resolved_program_keeps_scopes {source : String} {p : Program}
    (resolved : Source.analysed [.names, .placement] source = .ok p) (fuel : Nat) {machine : Machine}
    (idle : machine.operands = []) :
    (machine.watch fuel p).1 = machine.evaluate fuel p ∧
      ((machine.evaluate fuel p).EndsIn fun kind => kind.OfValues ∨ kind.OfTypes) ∧
      ∀ symbol context, .called symbol context ∈ (machine.watch fuel p).2.events →
        ∃ decl index, context.getFunction symbol.id symbol.name = .ok (decl, index) ∧
          decl.symbol.value? = some symbol := by
  have sound := Source.analysed_scoped resolved
  refine ⟨machine.watch_fst fuel p,
    (machine.evaluate_endsIn sound fuel idle).mono fun kind allowed => ?_, ?_⟩
  · exact allowed.imp_right fun wrong => wrong.2
  · intro symbol context member
    exact machine.watch_fine sound fuel idle _ member

def untypedSource : String :=
  "fn even(n: int): int \x7b if (n == 0) \x7b return 1; \x7d return odd(n - 1); \x7d " ++
  "fn odd(n: int): int \x7b if (n == 0) \x7b return 0; \x7d return even(n - 1); \x7d " ++
  "prints(even(3)); let x = 1 + \"one\";"

def Event.isCalled : Event → Bool
  | .called .. => true
  | _ => false

/-- The two functions call each other before an integer is printed as a text, which fails. -/
theorem untyped_keeps_scopes : ∃ p, Source.analysed [.names, .placement] untypedSource = .ok p ∧
    (∃ event ∈ ((Machine.fresh 10 {}).watch 100 p).2.events, event.isCalled = true) ∧
    ((Machine.fresh 10 {}).watch 100 p).1 = (Machine.fresh 10 {}).evaluate 100 p ∧
    (((Machine.fresh 10 {}).evaluate 100 p).EndsIn fun kind => kind.OfValues ∨ kind.OfTypes) ∧
    ∀ symbol context, .called symbol context ∈ ((Machine.fresh 10 {}).watch 100 p).2.events →
      ∃ decl index, context.getFunction symbol.id symbol.name = .ok (decl, index) ∧
        decl.symbol.value? = some symbol := by
  have accepted : (Source.analysed [.names, .placement] untypedSource).toOption.any (fun p =>
      ((Machine.fresh 10 {}).watch 100 p).2.events.any Event.isCalled) = true := by
    decide +kernel
  obtain ⟨p, resolved, called⟩ := ok_of_any accepted
  exact ⟨p, resolved, List.any_eq_true.mp called, resolved_program_keeps_scopes resolved 100 rfl⟩

/-- The variable that a reference was resolved to is in one of the visible scopes, the first that
its declaration has made there. The search for the name ends in that scope just if no scope before
it holds the name too, as is always so in a program in which no `let` captures a name. -/
theorem reference_found_unless_captured {source : String} {p : Program}
    (checked : Source.checked source = .ok p) (fuel : Nat) {machine : Machine}
    (idle : machine.operands = []) {name : String}
    {symbol : Attribute "variable declaration" VariableSymbol} {layout : Layout} {context : Context}
    (referred : .referred name symbol layout context ∈ (machine.watch fuel p).2.events) :
    (machine.watch fuel p).1 = machine.evaluate fuel p ∧
    ∃ s before index after, symbol.value? = some s ∧
      context.visibleScopes = before ++ index :: after ∧ layout.owner? index name = some s ∧
      (∀ nearer ∈ before, layout.owner? nearer name ≠ some s) ∧
      (context.findScope (·.contains name) = some index ↔
        ∀ nearer ∈ before, layout.owner? nearer name = none) ∧
      (p.uncaptured = true → context.findScope (·.contains name) = some index) := by
  have sound : p.Sound (p.uncaptured = true) := Source.checked_sound checked id
  obtain ⟨owners, s, before, index, after, stored, visible, owned, first, clear⟩ :=
    machine.watch_fine sound fuel idle _ referred
  have found : context.findScope (·.contains name) = some index ↔
      ∀ nearer ∈ before, layout.owner? nearer name = none :=
    context.findScope_iff owners visible owned first
  exact ⟨machine.watch_fst fuel p, s, before, index, after, stored, visible, owned, first, found,
    fun uncaptured => found.mpr (clear uncaptured)⟩

def Event.isReferred : Event → Bool
  | .referred .. => true
  | _ => false

theorem factorial_reference_found : ∃ p name symbol layout context,
    Source.checked factorialSource = .ok p ∧
    .referred name symbol layout context ∈ ((Machine.fresh 10 {}).watch 100 p).2.events ∧
    ((Machine.fresh 10 {}).watch 100 p).1 = (Machine.fresh 10 {}).evaluate 100 p ∧
    ∃ s before index after, symbol.value? = some s ∧
      context.visibleScopes = before ++ index :: after ∧ layout.owner? index name = some s ∧
      (∀ nearer ∈ before, layout.owner? nearer name ≠ some s) ∧
      (context.findScope (·.contains name) = some index ↔
        ∀ nearer ∈ before, layout.owner? nearer name = none) ∧
      (p.uncaptured = true → context.findScope (·.contains name) = some index) := by
  have accepted : (Source.checked factorialSource).toOption.any (fun p =>
      ((Machine.fresh 10 {}).watch 100 p).2.events.any Event.isReferred) = true := by
    decide +kernel
  obtain ⟨p, checked, some⟩ := ok_of_any accepted
  obtain ⟨event, member, isReferred⟩ := List.any_eq_true.mp some
  cases event with
  | referred name symbol layout context =>
    exact ⟨p, name, symbol, layout, context, checked, member,
      reference_found_unless_captured checked 100 rfl member⟩
  | evaluated | called => cases isReferred

/-- The search for the name ends at another variable than the one that the symbol stands for. -/
def Event.isCaptured : Event → Bool
  | .referred name symbol layout context =>
    match context.findScope (·.contains name) with
    | some index => layout.owner? index name != symbol.value?
    | none => false
  | _ => false

def capturingSource : String :=
  "let x = 1; { fn f(): int { return x; } let x = 2; print(f()); }"

/-- A `let` between a function and its call takes a name of the function. -/
theorem later_let_captures : ∃ p event, Source.checked capturingSource = .ok p ∧
    event ∈ ((Machine.fresh 10 {}).watch 100 p).2.events ∧ event.isCaptured = true := by
  have accepted : (Source.checked capturingSource).toOption.any (fun p =>
      ((Machine.fresh 10 {}).watch 100 p).2.events.any Event.isCaptured) = true := by
    decide +kernel
  obtain ⟨p, checked, some⟩ := ok_of_any accepted
  obtain ⟨event, member, isCaptured⟩ := List.any_eq_true.mp some
  exact ⟨p, event, checked, member, isCaptured⟩

end Lu
