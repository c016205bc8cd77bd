import Lu.Proofs.Check.Accepted
import Lu.Proofs.Parse.Blank
import Lu.Proofs.Scoping.Filling
import Lu.Proofs.Typing.Filling

namespace Lu

/-!
The analysis of a program that was parsed meets no fault: each slot is filled once, and before it is
read.
-/

section Placement

variable {typed : Bool}

mutual

theorem Expr.checkPlacement_ends : ∀ e : Expr, AllFilled typed e.nodes →
    Check.Ends (fun _ => True) e.checkPlacement
  | .literal .., _ | .variable .., _ => trivial
  | .assign _ target value, filled => by
    obtain ⟨targetFilled, valueFilled⟩ :=
      List.forall_mem_append.mp (List.forall_mem_cons.mp filled).2
    refine .bind (target.checkPlacement_ends targetFilled) fun _ _ _ => ?_
    refine .bind (value.checkPlacement_ends valueFilled) fun _ _ _ => ?_
    exact .ite (fun _ => trivial) fun _ => .fail
  | .binary _ _ left right, filled => by
    obtain ⟨leftFilled, rightFilled⟩ :=
      List.forall_mem_append.mp (List.forall_mem_cons.mp filled).2
    exact .bind (left.checkPlacement_ends leftFilled)
      fun _ _ _ => right.checkPlacement_ends rightFilled
  | .unary _ _ operand, filled => operand.checkPlacement_ends (List.forall_mem_cons.mp filled).2
  | .call note _ _ args callee, filled => by
    obtain ⟨⟨-, c, stored, -⟩, argsFilled⟩ := List.forall_mem_cons.mp filled
    refine .bind (Expr.checkPlacements_ends args argsFilled) fun _ _ _ => ?_
    refine .bind (.get (Option.isSome_iff_exists.mpr ⟨c, stored⟩)) fun found _ _ => ?_
    exact .ite (fun _ => trivial) fun _ => .fail

theorem Expr.checkPlacements_ends : ∀ args : List Expr, AllFilled typed (Expr.nodes.allNodes args) →
    Check.Ends (fun _ => True) (Expr.checkPlacement.checkAll args)
  | [], _ => trivial
  | e :: rest, filled => by
    obtain ⟨headFilled, restFilled⟩ := List.forall_mem_append.mp filled
    exact .bind (e.checkPlacement_ends headFilled)
      fun _ _ _ => Expr.checkPlacements_ends rest restFilled

end

theorem ForInit.checkPlacement_ends (init : ForInit) (filled : AllFilled typed init.nodes) :
    Check.Ends (fun _ => True) init.checkPlacement := by
  cases init with
  | letVar decl => exact decl.init.checkPlacement_ends (List.forall_mem_cons.mp filled).2
  | assign e => exact e.checkPlacement_ends filled

mutual

theorem Stmt.checkPlacement_ends : ∀ (s : Stmt) (around : Surroundings),
    AllFilled typed s.nodes → Check.Ends (fun _ => True) (s.checkPlacement around)
  | .expr _ e, _, filled => e.checkPlacement_ends filled
  | .letVar _ decl, _, filled => decl.init.checkPlacement_ends (List.forall_mem_cons.mp filled).2
  | .function _ decl, _, filled => decl.checkPlacement_ends filled
  | .block _ body, around, filled => body.checkPlacement_ends around filled
  | .ifElse _ condition thenBranch none, around, filled => by
    obtain ⟨conditionFilled, thenFilled⟩ := List.forall_mem_append.mp filled
    exact .bind (condition.checkPlacement_ends conditionFilled)
      fun _ _ _ => thenBranch.checkPlacement_ends around thenFilled
  | .ifElse _ condition thenBranch (some elseBranch), around, filled => by
    obtain ⟨conditionFilled, filled⟩ := List.forall_mem_append.mp filled
    obtain ⟨thenFilled, elseFilled⟩ := List.forall_mem_append.mp filled
    refine .bind (condition.checkPlacement_ends conditionFilled) fun _ _ _ => ?_
    exact .bind (thenBranch.checkPlacement_ends around thenFilled)
      fun _ _ _ => elseBranch.checkPlacement_ends around elseFilled
  | .whileLoop _ condition body, _, filled => by
    obtain ⟨conditionFilled, bodyFilled⟩ := List.forall_mem_append.mp filled
    exact .bind (condition.checkPlacement_ends conditionFilled)
      fun _ _ _ => body.checkPlacement_ends _ bodyFilled
  | .forLoop _ init condition step body, _, filled => by
    obtain ⟨initFilled, filled⟩ := List.forall_mem_append.mp filled
    obtain ⟨conditionFilled, filled⟩ := List.forall_mem_append.mp filled
    obtain ⟨stepFilled, bodyFilled⟩ := List.forall_mem_append.mp filled
    refine .bind (init.checkPlacement_ends initFilled) fun _ _ _ => ?_
    refine .bind (condition.checkPlacement_ends conditionFilled) fun _ _ _ => ?_
    exact .bind (step.checkPlacement_ends stepFilled)
      fun _ _ _ => body.checkPlacement_ends _ bodyFilled
  | .breakLoop _, _, _ | .continueLoop _, _, _ | .returnValue _ none, _, _ =>
    .ite (fun _ => trivial) fun _ => .fail
  | .returnValue _ (some value), _, filled =>
    .bind (value.checkPlacement_ends filled)
      fun _ _ _ => .ite (fun _ => trivial) fun _ => .fail

theorem Stmt.checkPlacements_ends : ∀ (statements : List Stmt) (around : Surroundings),
    AllFilled typed (Stmt.allNodes statements) →
    Check.Ends (fun _ => True) (Stmt.checkPlacements around statements)
  | [], _, _ => trivial
  | s :: rest, around, filled => by
    obtain ⟨headFilled, restFilled⟩ := List.forall_mem_append.mp filled
    exact .bind (s.checkPlacement_ends around headFilled)
      fun _ _ _ => Stmt.checkPlacements_ends rest around restFilled

theorem Block.checkPlacement_ends : ∀ (body : Block) (around : Surroundings),
    AllFilled typed body.nodes → Check.Ends (fun _ => True) (body.checkPlacement around)
  | ⟨_, statements⟩, around, filled => Stmt.checkPlacements_ends statements around filled

theorem FunctionDecl.checkPlacement_ends : ∀ decl : FunctionDecl,
    AllFilled typed decl.nodes → Check.Ends (fun _ => True) decl.checkPlacement
  | ⟨_, _, _, _, _, body, _, _⟩, filled =>
    body.checkPlacement_ends _ (List.forall_mem_cons.mp filled).2

end

end Placement

section Agreement

theorem Expr.expectType_ends (place : TypePlace) (expected : Ty) {e : Expr}
    (filled : AllFilled true e.nodes) : Check.Ends (fun _ => True) (e.expectType place expected) :=
  .bind (.get (Expr.isSet_of_filled filled)) fun _ _ _ => .ite (fun _ => trivial) fun _ => .fail

theorem Expr.checkUserArguments_ends {function : String} : ∀ (args : List Expr) (index : Nat)
    (params : List VariableSymbol), AllFilled true (Expr.nodes.allNodes args) →
    (∀ param ∈ params, param.type.isSet = true) →
    Check.Ends (fun _ => True) (Expr.checkUserArguments function index args params)
  | [], _, _, _, _ => trivial
  | _ :: _, _, [], _, _ => trivial
  | arg :: args, index, param :: params, filled, typed => by
    obtain ⟨headFilled, restFilled⟩ := List.forall_mem_append.mp filled
    obtain ⟨headTyped, restTyped⟩ := List.forall_mem_cons.mp typed
    refine .bind (.get (Expr.isSet_of_filled headFilled)) fun found _ _ => ?_
    refine .bind (.get headTyped) fun expected _ _ => ?_
    exact .ite (fun _ => Expr.checkUserArguments_ends args (index + 1) params restFilled restTyped)
      fun _ => .fail

theorem Expr.checkNativeArguments_ends {function : String} : ∀ (args : List Expr) (index : Nat)
    (params : List NativeParam), AllFilled true (Expr.nodes.allNodes args) →
    Check.Ends (fun _ => True) (Expr.checkNativeArguments function index args params)
  | [], _, _, _ => trivial
  | _ :: _, _, [], _ => trivial
  | arg :: args, index, param :: params, filled => by
    obtain ⟨headFilled, restFilled⟩ := List.forall_mem_append.mp filled
    refine .bind (.get (Expr.isSet_of_filled headFilled)) fun found _ _ => ?_
    exact .ite (fun _ => Expr.checkNativeArguments_ends args (index + 1) params restFilled)
      fun _ => .fail

mutual

theorem Expr.checkTypes_ends : ∀ e : Expr, AllFilled true e.nodes →
    Check.Ends (fun _ => True) e.checkTypes
  | .literal .., _ | .variable .., _ => trivial
  | .assign _ target value, filled => by
    obtain ⟨targetFilled, valueFilled⟩ :=
      List.forall_mem_append.mp (List.forall_mem_cons.mp filled).2
    refine .bind (target.checkTypes_ends targetFilled) fun _ _ _ => ?_
    refine .bind (value.checkTypes_ends valueFilled) fun _ _ _ => ?_
    exact .bind (.get (Expr.isSet_of_filled targetFilled))
      fun expected _ _ => Expr.expectType_ends .assignment expected valueFilled
  | .binary _ _ left right, filled => by
    obtain ⟨leftFilled, rightFilled⟩ :=
      List.forall_mem_append.mp (List.forall_mem_cons.mp filled).2
    exact .bind (left.checkTypes_ends leftFilled) fun _ _ _ => right.checkTypes_ends rightFilled
  | .unary _ _ operand, filled => operand.checkTypes_ends (List.forall_mem_cons.mp filled).2
  | .call note name _ args callee, filled => by
    obtain ⟨⟨-, c, stored, announced⟩, argsFilled⟩ := List.forall_mem_cons.mp filled
    refine .bind (Expr.checkTypesAll_ends args argsFilled) fun _ _ _ => ?_
    refine .bind (.get (Option.isSome_iff_exists.mpr ⟨c, stored⟩)) fun found _ again => ?_
    cases stored.symm.trans again
    cases c with
    | user symbol => exact Expr.checkUserArguments_ends args 1 symbol.params argsFilled announced
    | native signature => exact Expr.checkNativeArguments_ends args 1 signature.params argsFilled

theorem Expr.checkTypesAll_ends : ∀ args : List Expr, AllFilled true (Expr.nodes.allNodes args) →
    Check.Ends (fun _ => True) (Expr.checkTypes.checkAll args)
  | [], _ => trivial
  | e :: rest, filled => by
    obtain ⟨headFilled, restFilled⟩ := List.forall_mem_append.mp filled
    exact .bind (e.checkTypes_ends headFilled) fun _ _ _ => Expr.checkTypesAll_ends rest restFilled

end

theorem VarDecl.checkTypes_ends (decl : VarDecl) (filled : AllFilled true decl.nodes) :
    Check.Ends (fun _ => True) decl.checkTypes := by
  obtain ⟨-, initFilled⟩ := List.forall_mem_cons.mp filled
  refine .bind (decl.init.checkTypes_ends initFilled) fun _ _ _ => ?_
  refine .bind (.get (Expr.isSet_of_filled initFilled)) fun found _ _ => ?_
  refine .ite (fun _ => .fail) fun _ => ?_
  split
  all_goals exact .ite (fun _ => by trivial) fun _ => by trivial

theorem ForInit.checkTypes_ends (init : ForInit) (filled : AllFilled true init.nodes) :
    Check.Ends (fun _ => True) init.checkTypes := by
  cases init with
  | letVar decl =>
    exact .bind (decl.checkTypes_ends filled)
      fun _ _ _ => Expr.expectType_ends .forStart .int (List.forall_mem_cons.mp filled).2
  | assign e =>
    refine .bind (e.checkTypes_ends filled) fun _ _ _ => ?_
    cases e with
    | assign _ target value =>
      obtain ⟨targetFilled, -⟩ := List.forall_mem_append.mp (List.forall_mem_cons.mp filled).2
      exact Expr.expectType_ends .forStart .int targetFilled
    | literal | «variable» | binary | unary | call => trivial

theorem checkReturned_ends (around : Option EnclosingFunction) (span : Span) {value : Option Expr}
    (filled : ∀ e, value = some e → AllFilled true e.nodes) :
    Check.Ends (fun _ => True) (checkReturned around span value) := by
  cases around with
  | none => trivial
  | some function =>
    obtain ⟨name, result⟩ := function
    cases value with
    | none => cases result <;> trivial
    | some e =>
      cases result with
      | void =>
        refine .bind (.get (Expr.isSet_of_filled (filled e rfl))) fun found _ _ => ?_
        exact .ite (fun _ => trivial) fun _ => .fail
      | int | float | str | nil => exact Expr.expectType_ends .returned _ (filled e rfl)

theorem checkFinalReturn_faultless (function : EnclosingFunction) (body : Block) :
    Check.Ends (fun _ => True) (checkFinalReturn function body) := by
  unfold checkFinalReturn
  split <;> trivial

mutual

theorem Stmt.checkTypes_ends : ∀ (s : Stmt) (around : Option EnclosingFunction),
    AllFilled true s.nodes → Check.Ends (fun _ => True) (s.checkTypes around)
  | .expr _ e, _, filled => e.checkTypes_ends filled
  | .letVar _ decl, _, filled => decl.checkTypes_ends filled
  | .function _ decl, _, filled => decl.checkTypes_ends filled
  | .block _ body, around, filled => body.checkTypes_ends around filled
  | .ifElse _ condition thenBranch none, around, filled => by
    obtain ⟨conditionFilled, thenFilled⟩ := List.forall_mem_append.mp filled
    refine .bind (condition.checkTypes_ends conditionFilled) fun _ _ _ => ?_
    exact .bind (Expr.expectType_ends .ifCondition .int conditionFilled)
      fun _ _ _ => thenBranch.checkTypes_ends around thenFilled
  | .ifElse _ condition thenBranch (some elseBranch), around, filled => by
    obtain ⟨conditionFilled, filled⟩ := List.forall_mem_append.mp filled
    obtain ⟨thenFilled, elseFilled⟩ := List.forall_mem_append.mp filled
    refine .bind (condition.checkTypes_ends conditionFilled) fun _ _ _ => ?_
    refine .bind (Expr.expectType_ends .ifCondition .int conditionFilled) fun _ _ _ => ?_
    exact .bind (thenBranch.checkTypes_ends around thenFilled)
      fun _ _ _ => elseBranch.checkTypes_ends around elseFilled
  | .whileLoop _ condition body, around, filled => by
    obtain ⟨conditionFilled, bodyFilled⟩ := List.forall_mem_append.mp filled
    refine .bind (condition.checkTypes_ends conditionFilled) fun _ _ _ => ?_
    exact .bind (Expr.expectType_ends .whileCondition .int conditionFilled)
      fun _ _ _ => body.checkTypes_ends around bodyFilled
  | .forLoop _ init condition step body, around, filled => by
    obtain ⟨initFilled, filled⟩ := List.forall_mem_append.mp filled
    obtain ⟨conditionFilled, filled⟩ := List.forall_mem_append.mp filled
    obtain ⟨stepFilled, bodyFilled⟩ := List.forall_mem_append.mp filled
    refine .bind (init.checkTypes_ends initFilled) fun _ _ _ => ?_
    refine .bind (condition.checkTypes_ends conditionFilled) fun _ _ _ => ?_
    refine .bind (Expr.expectType_ends .forCondition .int conditionFilled) fun _ _ _ => ?_
    exact .bind (step.checkTypes_ends stepFilled)
      fun _ _ _ => body.checkTypes_ends around bodyFilled
  | .breakLoop _, _, _ | .continueLoop _, _, _ => trivial
  | .returnValue span none, around, _ => checkReturned_ends around span nofun
  | .returnValue span (some value), around, filled =>
    .bind (value.checkTypes_ends filled)
      fun _ _ _ => checkReturned_ends around span fun _ same => Option.some.inj same ▸ filled

theorem Stmt.checkTypesAll_ends : ∀ (statements : List Stmt) (around : Option EnclosingFunction),
    AllFilled true (Stmt.allNodes statements) →
    Check.Ends (fun _ => True) (Stmt.checkTypesAll around statements)
  | [], _, _ => trivial
  | s :: rest, around, filled => by
    obtain ⟨headFilled, restFilled⟩ := List.forall_mem_append.mp filled
    exact .bind (s.checkTypes_ends around headFilled)
      fun _ _ _ => Stmt.checkTypesAll_ends rest around restFilled

theorem Block.checkTypes_ends : ∀ (body : Block) (around : Option EnclosingFunction),
    AllFilled true body.nodes → Check.Ends (fun _ => True) (body.checkTypes around)
  | ⟨_, statements⟩, around, filled => Stmt.checkTypesAll_ends statements around filled

theorem FunctionDecl.checkTypes_ends : ∀ decl : FunctionDecl,
    AllFilled true decl.nodes → Check.Ends (fun _ => True) decl.checkTypes
  | ⟨_, _, _, _, _, body, _, symbol⟩, filled => by
    obtain ⟨⟨set, -⟩, bodyFilled⟩ := List.forall_mem_cons.mp filled
    refine .bind (.get set) fun function _ _ => ?_
    refine .bind (body.checkTypes_ends _ bodyFilled) fun _ _ _ => ?_
    exact checkFinalReturn_faultless _ body

end

end Agreement

section Analysis

variable {program : Program}

/-- A step that only checks leaves the program as it is. -/
theorem Check.Ends.guard {check : Check Unit} (ends : Check.Ends (fun _ => True) check) :
    Check.Ends (· = program) (do check; return program : Check Program) :=
  .bind ends fun _ _ _ => .pure rfl

/-- The first step fills the slots for symbols, and the third those for types. -/
theorem Program.check_fills (blank : program.blank = program) :
    Check.Ends (fun checked => AllFilled true checked.nodes) program.check := by
  refine .bind (program.resolveNames_fills Native.signatures blank) fun named atNames filled => ?_
  have resolved := (Program.resolveNames_resolved atNames).1
  refine .bind (.guard (Stmt.checkPlacements_ends named.statements {} filled)) fun _ _ same => ?_
  subst same
  refine .bind (Program.resolveTypes_fills resolved filled) fun typed _ filled => ?_
  refine .bind (.guard (Stmt.checkTypesAll_ends typed.statements none filled)) fun _ _ same => ?_
  subst same
  exact .pure filled

/-- The analysis of a parsed program meets no fault, however many of its steps it takes: no slot is
read before it is filled, and none is filled twice, be it by two steps or by one step that comes to
its node again. When all steps have been taken, the slots are filled at every node. -/
theorem analysis_never_faults {tokens : List Token} (parsed : parse? tokens = some (.ok program)) :
    (∀ steps, steps <+: AnalysisStep.all → ∀ f, program.analyse steps ≠ .error (.fault f)) ∧
      ∀ checked, program.check = .ok checked → ∀ node ∈ checked.nodes, node.Filled true := by
  have fills := Program.check_fills (parse?_blank parsed)
  refine ⟨fun steps ⟨more, whole⟩ f faulted => ?_, fun checked run => fills.of_ok run⟩
  -- A fault of the first steps would be one of all steps.
  refine fills.faultless f ?_
  rw [Program.check, ← whole, Program.analyse, List.foldlM_append]
  rw [Program.analyse] at faulted
  rw [faulted]
  rfl

/-- Annotated and other variables, a loop, parameters and calls. -/
def summingSource : String :=
  "fn sum(n: int, start: int): int \x7b let total: int = start; " ++
  "for (let i = 1; i <= n; i = i + 1) \x7b total = total + i; \x7d return total; \x7d " ++
  "let s = itos(sum(3, 0)); prints(s);"

theorem summing_never_faults : ∃ tokens program checked, lex summingSource = .ok tokens ∧
    parse? tokens = some (.ok program) ∧ program.check = .ok checked ∧
    (∀ steps, steps <+: AnalysisStep.all → ∀ f, program.analyse steps ≠ .error (.fault f)) ∧
    ∀ node ∈ checked.nodes, node.Filled true := by
  have accepted : (Source.program summingSource).toOption.any (fun program =>
      program.check.toOption.any fun _ => true) = true := by
    decide +kernel
  obtain ⟨program, read, accepted⟩ := ok_of_any accepted
  obtain ⟨tokens, lexed, parsed⟩ := Source.program_eq_ok.mp read
  obtain ⟨checked, run, -⟩ := ok_of_any accepted
  obtain ⟨faultless, filled⟩ := analysis_never_faults parsed
  exact ⟨tokens, program, checked, lexed, parsed, run, faultless, filled checked run⟩

end Analysis

end Lu
