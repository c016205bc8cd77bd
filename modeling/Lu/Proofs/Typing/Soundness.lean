import Lu.Proofs.Typing.Agreement
import Lu.Proofs.Typing.Filling

namespace Lu

/-!
A program whose types are found and then agree has a derivation in the type system, with the types
that were found.
-/

/-- The types of a derivation are those that are written down. -/
theorem Expr.Elaborates.type {types : VariableTypes} {e e' : Expr} {ty : Ty}
    (elaborates : e.Elaborates types ty e') : e'.type.value? = some ty := by
  cases elaborates <;> rfl

theorem Expr.AllElaborate.known : ∀ {types : VariableTypes} {args args' : List Expr}
    {argTypes : List Ty}, Expr.AllElaborate types args argTypes args' →
    List.Forall₂ (fun arg ty => arg.type.value? = some ty) args' argTypes
  | _, _, _, _, .nil => .nil
  | _, _, _, _, .cons head rest => .cons head.type rest.known

theorem Expr.AllElaborate.length : ∀ {types : VariableTypes} {args args' : List Expr}
    {argTypes : List Ty}, Expr.AllElaborate types args argTypes args' →
    args'.length = args.length
  | _, _, _, _, .nil => rfl
  | _, _, _, _, .cons _ rest => congrArg Nat.succ rest.length

section Expressions

variable {types : VariableTypes}

mutual

theorem Expr.resolveTypes_elaborates :
    ∀ (e : Expr) {e' : Expr}, e.checkPlacement = .ok () → e.resolveTypes types = .ok e' →
      e'.checkTypes = .ok () → ∃ ty, e.Elaborates types ty e'
  | .literal note value, _, _, run, _ => by
    obtain ⟨note', typed, run⟩ := bind_eq_ok.mp run
    cases run
    obtain ⟨-, rfl⟩ := ExprNote.setType_eq_ok.mp typed
    exact ⟨_, .literal⟩
  | .variable note name symbol, _, _, run, _ => by
    obtain ⟨⟨filled, ty⟩, found, run⟩ := bind_eq_ok.mp run
    obtain ⟨note', typed, run⟩ := bind_eq_ok.mp run
    cases run
    obtain ⟨-, rfl⟩ := ExprNote.setType_eq_ok.mp typed
    obtain ⟨s, stored, known⟩ := bind_eq_ok.mp (Check.lift_eq_ok.mp found)
    obtain ⟨hasType, rfl⟩ := VariableSymbol.typed_iff.mp known
    exact ⟨ty, .variable (Attribute.get_eq_ok.mp stored) hasType⟩
  | .assign note target value, _, placed, run, agrees => by
    obtain ⟨_, targetPlaced, placed⟩ := bind_eq_ok.mp placed
    obtain ⟨_, valuePlaced, placed⟩ := bind_eq_ok.mp placed
    obtain ⟨target', atTarget, run⟩ := bind_eq_ok.mp run
    obtain ⟨value', atValue, run⟩ := bind_eq_ok.mp run
    obtain ⟨note', typed, run⟩ := bind_eq_ok.mp run
    cases run
    obtain ⟨-, rfl⟩ := ExprNote.setType_eq_ok.mp typed
    obtain ⟨_, targetAgrees, agrees⟩ := bind_eq_ok.mp agrees
    obtain ⟨_, valueAgrees, agrees⟩ := bind_eq_ok.mp agrees
    obtain ⟨targetType, targetDerived⟩ :=
      target.resolveTypes_elaborates targetPlaced atTarget targetAgrees
    obtain ⟨valueType, valueDerived⟩ :=
      value.resolveTypes_elaborates valuePlaced atValue valueAgrees
    rw [Check.get_bind targetDerived.type, Expr.expectType_iff, valueDerived.type] at agrees
    obtain ⟨same, isValue⟩ := agrees
    cases same
    exact ⟨_, .assign (Check.demanded.mp placed) targetDerived valueDerived isValue⟩
  | .binary note op left right, _, placed, run, agrees => by
    obtain ⟨_, leftPlaced, rightPlaced⟩ := bind_eq_ok.mp placed
    obtain ⟨left', atLeft, run⟩ := bind_eq_ok.mp run
    obtain ⟨right', atRight, run⟩ := bind_eq_ok.mp run
    obtain ⟨leftType, leftKnown, run⟩ := bind_eq_ok.mp run
    obtain ⟨rightType, rightKnown, run⟩ := bind_eq_ok.mp run
    split at run
    · rename_i ty gives
      obtain ⟨note', typed, run⟩ := bind_eq_ok.mp run
      cases run
      obtain ⟨-, rfl⟩ := ExprNote.setType_eq_ok.mp typed
      obtain ⟨_, leftAgrees, rightAgrees⟩ := bind_eq_ok.mp agrees
      obtain ⟨_, leftDerived⟩ := left.resolveTypes_elaborates leftPlaced atLeft leftAgrees
      obtain ⟨_, rightDerived⟩ := right.resolveTypes_elaborates rightPlaced atRight rightAgrees
      simp only [Check.lift_eq_ok, Attribute.get_eq_ok] at leftKnown rightKnown
      cases leftDerived.type.symm.trans leftKnown
      cases rightDerived.type.symm.trans rightKnown
      exact ⟨ty, .binary leftDerived rightDerived (BinaryOp.gives_iff.mpr gives)⟩
    · cases run
  | .unary note op operand, _, placed, run, agrees => by
    obtain ⟨operand', atOperand, run⟩ := bind_eq_ok.mp run
    obtain ⟨operandType, known, run⟩ := bind_eq_ok.mp run
    split at run
    · rename_i ty gives
      obtain ⟨note', typed, run⟩ := bind_eq_ok.mp run
      cases run
      obtain ⟨-, rfl⟩ := ExprNote.setType_eq_ok.mp typed
      obtain ⟨_, derived⟩ := operand.resolveTypes_elaborates placed atOperand agrees
      simp only [Check.lift_eq_ok, Attribute.get_eq_ok] at known
      cases derived.type.symm.trans known
      exact ⟨ty, .unary derived (UnaryOp.gives_iff.mpr gives)⟩
    · cases run
  | .call note name nameSpan args callee, _, placed, run, agrees => by
    obtain ⟨_, argsPlaced, placed⟩ := bind_eq_ok.mp placed
    obtain ⟨c, found, placed⟩ := bind_eq_ok.mp placed
    have stored := Attribute.get_eq_ok.mp (Check.lift_eq_ok.mp found)
    have arity : args.length = c.arity := Check.demanded.mp placed
    obtain ⟨args', atArgs, run⟩ := bind_eq_ok.mp run
    rw [Check.get_bind stored] at run
    obtain ⟨note', typed, run⟩ := bind_eq_ok.mp run
    cases run
    obtain ⟨-, rfl⟩ := ExprNote.setType_eq_ok.mp typed
    obtain ⟨_, argsAgree, agrees⟩ := bind_eq_ok.mp agrees
    rw [Check.get_bind stored] at agrees
    obtain ⟨argTypes, derived⟩ := Expr.resolveTypesAll_elaborate args argsPlaced atArgs argsAgree
    rw [← derived.length] at arity
    refine ⟨_, .call stored derived ?_⟩
    cases c with
    | user function => exact (checkUserArguments_iff derived.known 1 arity).mp agrees
    | native signature => exact (checkNativeArguments_iff derived.known 1 arity).mp agrees

theorem Expr.resolveTypesAll_elaborate :
    ∀ (args : List Expr) {args' : List Expr}, Expr.checkPlacement.checkAll args = .ok () →
      Expr.resolveTypes.resolveAll types args = .ok args' →
      Expr.checkTypes.checkAll args' = .ok () →
      ∃ argTypes, Expr.AllElaborate types args argTypes args'
  | [], _, _, run, _ => by
    cases run
    exact ⟨[], .nil⟩
  | e :: rest, _, placed, run, agrees => by
    obtain ⟨_, headPlaced, restPlaced⟩ := bind_eq_ok.mp placed
    obtain ⟨e', atHead, run⟩ := bind_eq_ok.mp run
    obtain ⟨rest', atRest, run⟩ := bind_eq_ok.mp run
    cases run
    obtain ⟨_, headAgrees, restAgrees⟩ := bind_eq_ok.mp agrees
    obtain ⟨_, head⟩ := e.resolveTypes_elaborates headPlaced atHead headAgrees
    obtain ⟨_, rest⟩ := Expr.resolveTypesAll_elaborate rest restPlaced atRest restAgrees
    exact ⟨_, .cons head rest⟩

end

/-- A condition is derived with the type that is expected of it. -/
theorem Expr.resolveTypes_expected {place : TypePlace} {e e' : Expr} {ty : Ty}
    (placed : e.checkPlacement = .ok ()) (run : e.resolveTypes types = .ok e')
    (agrees : e'.checkTypes = .ok ()) (expected : e'.expectType place ty = .ok ()) :
    e.Elaborates types ty e' := by
  obtain ⟨found, derived⟩ := e.resolveTypes_elaborates placed run agrees
  rw [Expr.expectType_iff, derived.type] at expected
  cases expected.1
  exact derived

theorem VarDecl.resolveTypes_elaborates {scopes : Scopes} {after : VariableTypes}
    {kind : VariableKind} {decl decl' : VarDecl} (resolved : decl.Resolved scopes kind)
    (filled : AllFilled false decl.nodes) (placed : decl.init.checkPlacement = .ok ())
    (run : decl.resolveTypes types = .ok (decl', after)) (agrees : decl'.checkTypes = .ok ())
    (start : kind = .iterator → decl'.init.type.value? = some .int) :
    ∃ ty, decl.Elaborates types kind ty decl' after ∧ decl'.init.type.value? = some ty := by
  obtain ⟨⟨meaning, -⟩, -⟩ := List.forall_mem_cons.mp filled
  obtain ⟨init, s, ty, atInit, stored, plain, iterator, -, rfl, shape⟩ :=
    VarDecl.resolveTypes_eq_ok run
  have sameKind : s.kind = kind := by
    cases stored.symm.trans resolved.symbol
    exact resolved.kind
  obtain ⟨_, initAgrees, -⟩ := bind_eq_ok.mp agrees
  rw [shape] at initAgrees
  obtain ⟨found, derived⟩ := decl.init.resolveTypes_elaborates placed atInit initAgrees
  have known : decl'.init.type.value? = some found := by
    rw [shape]
    exact derived.type
  have meaning' : decl'.declared.value? = decl'.typeName.map TypeName.meaning := by
    rw [shape]
    exact meaning
  obtain ⟨-, isValue, annotated⟩ := (VarDecl.checkTypes_iff known meaning').mp agrees
  have same : found = ty := by
    by_cases loop : s.kind = .iterator
    · rw [iterator loop]
      exact Option.some.inj (known.symm.trans (start (sameKind ▸ loop)))
    · exact Option.some.inj (derived.type.symm.trans (plain loop))
  refine ⟨found, ?_, known⟩
  subst same shape
  exact .mk stored sameKind derived isValue annotated

theorem ForInit.resolveTypes_elaborates {scopes : Scopes} {after : VariableTypes}
    {init init' : ForInit} (resolved : init.Resolved scopes) (filled : AllFilled false init.nodes)
    (placed : init.checkPlacement = .ok ()) (run : init.resolveTypes types = .ok (init', after))
    (agrees : init'.checkTypes = .ok ()) : init.Elaborates types init' after := by
  cases init with
  | letVar decl =>
    obtain ⟨⟨decl', bound⟩, atDecl, run⟩ := bind_eq_ok.mp run
    cases run
    obtain ⟨_, declAgrees, start⟩ := bind_eq_ok.mp agrees
    have int := (Expr.expectType_iff.mp start).1
    obtain ⟨ty, derived, known⟩ :=
      VarDecl.resolveTypes_elaborates resolved filled placed atDecl declAgrees fun _ => int
    cases known.symm.trans int
    exact .letVar derived
  | assign e =>
    obtain ⟨e', atExpr, run⟩ := bind_eq_ok.mp run
    cases run
    obtain ⟨_, exprAgrees, start⟩ := bind_eq_ok.mp agrees
    obtain ⟨ty, derived⟩ := e.resolveTypes_elaborates placed atExpr exprAgrees
    refine .assign derived fun note target value same => ?_
    subst same
    exact (Expr.expectType_iff.mp start).1

end Expressions

mutual

theorem Stmt.resolveTypes_elaborates :
    ∀ (s : Stmt) {scopes : Scopes} {types after : VariableTypes} {around : Surroundings}
      {function : Option EnclosingFunction} {s' : Stmt}, s.Resolved scopes →
      AllFilled false s.nodes → s.checkPlacement around = .ok () →
      s.resolveTypes types = .ok (s', after) → s'.checkTypes function = .ok () →
      around.inFunction = function.isSome → s.Elaborates (resultAround function) types s' after
  | .expr span e, _, _, _, _, _, _, _, _, placed, run, agrees, _ => by
    obtain ⟨e', atExpr, run⟩ := bind_eq_ok.mp run
    cases run
    obtain ⟨ty, derived⟩ := e.resolveTypes_elaborates placed atExpr agrees
    exact .expr derived
  | .letVar span decl, _, _, _, _, _, _, resolved, filled, placed, run, agrees, _ => by
    obtain ⟨⟨decl', bound⟩, atDecl, run⟩ := bind_eq_ok.mp run
    cases run
    obtain ⟨ty, derived, -⟩ :=
      VarDecl.resolveTypes_elaborates resolved filled placed atDecl agrees nofun
    exact .letVar derived
  | .function span decl, _, _, _, _, _, _, resolved, filled, placed, run, agrees, _ => by
    obtain ⟨decl', atDecl, run⟩ := bind_eq_ok.mp run
    cases run
    exact .function (decl.resolveTypes_elaborates resolved filled placed atDecl agrees)
  | .block span body, _, _, _, _, _, _, resolved, filled, placed, run, agrees, within => by
    obtain ⟨body', atBody, run⟩ := bind_eq_ok.mp run
    cases run
    exact .block (body.resolveTypes_elaborates resolved filled placed atBody agrees within)
  | .ifElse span condition thenBranch none, _, _, _, _, _, _, resolved, filled, placed, run,
      agrees, within => by
    obtain ⟨-, thenFilled⟩ := List.forall_mem_append.mp filled
    obtain ⟨_, conditionPlaced, thenPlaced⟩ := bind_eq_ok.mp placed
    obtain ⟨condition', atCondition, run⟩ := bind_eq_ok.mp run
    obtain ⟨thenBranch', atThen, run⟩ := bind_eq_ok.mp run
    cases run
    obtain ⟨_, conditionAgrees, agrees⟩ := bind_eq_ok.mp agrees
    obtain ⟨_, expected, thenAgrees⟩ := bind_eq_ok.mp agrees
    exact .ifThen (Expr.resolveTypes_expected conditionPlaced atCondition conditionAgrees expected)
      (thenBranch.resolveTypes_elaborates resolved.2 thenFilled thenPlaced atThen thenAgrees within)
  | .ifElse span condition thenBranch (some elseBranch), _, _, _, _, _, _, resolved, filled, placed,
      run, agrees, within => by
    obtain ⟨-, filled⟩ := List.forall_mem_append.mp filled
    obtain ⟨thenFilled, elseFilled⟩ := List.forall_mem_append.mp filled
    obtain ⟨_, conditionPlaced, placed⟩ := bind_eq_ok.mp placed
    obtain ⟨_, thenPlaced, elsePlaced⟩ := bind_eq_ok.mp placed
    obtain ⟨condition', atCondition, run⟩ := bind_eq_ok.mp run
    obtain ⟨thenBranch', atThen, run⟩ := bind_eq_ok.mp run
    obtain ⟨elseBranch', atElse, run⟩ := bind_eq_ok.mp run
    cases run
    obtain ⟨_, conditionAgrees, agrees⟩ := bind_eq_ok.mp agrees
    obtain ⟨_, expected, agrees⟩ := bind_eq_ok.mp agrees
    obtain ⟨_, thenAgrees, elseAgrees⟩ := bind_eq_ok.mp agrees
    exact .ifElse (Expr.resolveTypes_expected conditionPlaced atCondition conditionAgrees expected)
      (thenBranch.resolveTypes_elaborates resolved.2.1 thenFilled thenPlaced atThen thenAgrees
        within)
      (elseBranch.resolveTypes_elaborates resolved.2.2 elseFilled elsePlaced atElse elseAgrees
        within)
  | .whileLoop span condition body, _, _, _, _, _, _, resolved, filled, placed, run, agrees,
      within => by
    obtain ⟨-, bodyFilled⟩ := List.forall_mem_append.mp filled
    obtain ⟨_, conditionPlaced, bodyPlaced⟩ := bind_eq_ok.mp placed
    obtain ⟨condition', atCondition, run⟩ := bind_eq_ok.mp run
    obtain ⟨body', atBody, run⟩ := bind_eq_ok.mp run
    cases run
    obtain ⟨_, conditionAgrees, agrees⟩ := bind_eq_ok.mp agrees
    obtain ⟨_, expected, bodyAgrees⟩ := bind_eq_ok.mp agrees
    exact .whileLoop
      (Expr.resolveTypes_expected conditionPlaced atCondition conditionAgrees expected)
      (body.resolveTypes_elaborates resolved.2 bodyFilled bodyPlaced atBody bodyAgrees within)
  | .forLoop span init condition step body, _, _, _, _, _, _, resolved, filled, placed, run, agrees,
      within => by
    obtain ⟨initFilled, filled⟩ := List.forall_mem_append.mp filled
    obtain ⟨-, filled⟩ := List.forall_mem_append.mp filled
    obtain ⟨-, bodyFilled⟩ := List.forall_mem_append.mp filled
    obtain ⟨_, initPlaced, placed⟩ := bind_eq_ok.mp placed
    obtain ⟨_, conditionPlaced, placed⟩ := bind_eq_ok.mp placed
    obtain ⟨_, stepPlaced, bodyPlaced⟩ := bind_eq_ok.mp placed
    obtain ⟨⟨init', inner⟩, atInit, run⟩ := bind_eq_ok.mp run
    obtain ⟨condition', atCondition, run⟩ := bind_eq_ok.mp run
    obtain ⟨step', atStep, run⟩ := bind_eq_ok.mp run
    obtain ⟨body', atBody, run⟩ := bind_eq_ok.mp run
    cases run
    obtain ⟨_, initAgrees, agrees⟩ := bind_eq_ok.mp agrees
    obtain ⟨_, conditionAgrees, agrees⟩ := bind_eq_ok.mp agrees
    obtain ⟨_, expected, agrees⟩ := bind_eq_ok.mp agrees
    obtain ⟨_, stepAgrees, bodyAgrees⟩ := bind_eq_ok.mp agrees
    obtain ⟨stepType, stepDerived⟩ := step.resolveTypes_elaborates stepPlaced atStep stepAgrees
    exact .forLoop
      (ForInit.resolveTypes_elaborates resolved.1 initFilled initPlaced atInit initAgrees)
      (Expr.resolveTypes_expected conditionPlaced atCondition conditionAgrees expected) stepDerived
      (body.resolveTypes_elaborates resolved.2.2.2 bodyFilled bodyPlaced atBody bodyAgrees within)
  | .breakLoop _, _, _, _, _, _, _, _, _, _, run, _, _ => by
    cases run
    exact .breakLoop
  | .continueLoop _, _, _, _, _, _, _, _, _, _, run, _, _ => by
    cases run
    exact .continueLoop
  | .returnValue span none, _, _, _, _, function, _, _, _, placed, run, agrees, within => by
    cases run
    cases function with
    | none =>
      -- No `return` is placed here.
      have inside := Check.demanded.mp placed
      cases within.symm.trans inside
    | some function =>
      rw [resultAround, Option.map_some, checkReturned_nothing.mp agrees]
      exact .returnNothing
  | .returnValue span (some value), _, _, _, _, function, _, _, _, placed, run, agrees, within => by
    obtain ⟨_, valuePlaced, placed⟩ := bind_eq_ok.mp placed
    obtain ⟨value', atValue, run⟩ := bind_eq_ok.mp run
    cases run
    obtain ⟨_, valueAgrees, agrees⟩ := bind_eq_ok.mp agrees
    obtain ⟨ty, derived⟩ := value.resolveTypes_elaborates valuePlaced atValue valueAgrees
    cases function with
    | none =>
      have inside := Check.demanded.mp placed
      cases within.symm.trans inside
    | some function =>
      obtain ⟨same, void | isValue⟩ := (checkReturned_iff derived.type).mp agrees
      · subst void
        rw [resultAround, Option.map_some, ← same]
        exact .returnVoid derived
      · rw [resultAround, Option.map_some, ← same]
        exact .returnValue derived isValue
termination_by structural s => s

theorem Stmt.resolveTypesAll_elaborate :
    ∀ (statements : List Stmt) {scopes : Scopes} {inRun : Bool} {types : VariableTypes}
      {around : Surroundings} {function : Option EnclosingFunction} {statements' : List Stmt},
      Stmt.AllResolved scopes inRun statements → AllFilled false (Stmt.allNodes statements) →
      Stmt.checkPlacements around statements = .ok () →
      Stmt.resolveTypesAll types statements = .ok statements' →
      Stmt.checkTypesAll function statements' = .ok () → around.inFunction = function.isSome →
      Stmt.AllElaborate (resultAround function) types statements statements'
  | [], _, _, _, _, _, _, _, _, _, run, _, _ => by
    cases run
    exact .nil
  | s :: rest, _, _, _, _, _, _, ⟨_, headResolved, restResolved⟩, filled, placed, run, agrees,
      within => by
    obtain ⟨headFilled, restFilled⟩ := List.forall_mem_append.mp filled
    obtain ⟨_, headPlaced, restPlaced⟩ := bind_eq_ok.mp placed
    obtain ⟨⟨s', after⟩, atHead, run⟩ := bind_eq_ok.mp run
    obtain ⟨rest', atRest, run⟩ := bind_eq_ok.mp run
    cases run
    obtain ⟨_, headAgrees, restAgrees⟩ := bind_eq_ok.mp agrees
    exact .cons
      (s.resolveTypes_elaborates headResolved headFilled headPlaced atHead headAgrees within)
      (Stmt.resolveTypesAll_elaborate rest restResolved restFilled restPlaced atRest restAgrees
        within)
termination_by structural statements => statements

theorem Block.resolveTypes_elaborates :
    ∀ (body : Block) {scopes : Scopes} {types : VariableTypes} {around : Surroundings}
      {function : Option EnclosingFunction} {body' : Block}, body.Resolved scopes →
      AllFilled false body.nodes → body.checkPlacement around = .ok () →
      body.resolveTypes types = .ok body' → body'.checkTypes function = .ok () →
      around.inFunction = function.isSome → body.Elaborates (resultAround function) types body'
  | ⟨span, statements⟩, _, _, _, _, _, resolved, filled, placed, run, agrees, within => by
    obtain ⟨statements', atStatements, run⟩ := bind_eq_ok.mp run
    cases run
    exact .mk (Stmt.resolveTypesAll_elaborate statements resolved filled placed atStatements
      agrees within)
termination_by structural body => body

theorem FunctionDecl.resolveTypes_elaborates :
    ∀ (decl : FunctionDecl) {scopes : Scopes} {types : VariableTypes} {decl' : FunctionDecl},
      decl.Resolved scopes → AllFilled false decl.nodes → decl.checkPlacement = .ok () →
      decl.resolveTypes types = .ok decl' → decl'.checkTypes = .ok () →
      decl.Elaborates types decl'
  | ⟨id, name, nameSpan, params, resultName, body, span, symbol⟩, _, _, _, resolved, filled, placed,
      run, agrees => by
    obtain ⟨-, bodyFilled⟩ := List.forall_mem_cons.mp filled
    obtain ⟨body', atBody, run⟩ := bind_eq_ok.mp run
    cases run
    obtain ⟨function, known, agrees⟩ := bind_eq_ok.mp agrees
    obtain ⟨_, bodyAgrees, ends⟩ := bind_eq_ok.mp agrees
    have derived := body.resolveTypes_elaborates resolved.2 bodyFilled placed atBody bodyAgrees rfl
    obtain ⟨last, value, isLast, -⟩ := checkFinalReturn_iff.mp ends
    exact .mk (Attribute.get_eq_ok.mp (Check.lift_eq_ok.mp known)) derived ⟨last, value, isLast⟩
termination_by structural decl => decl

end

theorem Program.resolveTypes_elaborates {natives : List NativeSignature} {program typed : Program}
    (resolved : program.Resolved natives)
    (filled : AllFilled false program.nodes) (placed : program.checkPlacement = .ok ())
    (run : program.resolveTypes = .ok typed) (agrees : typed.checkTypes = .ok ()) :
    program.Elaborates typed := by
  obtain ⟨statements', atStatements, rfl⟩ := Program.resolveTypes_eq_ok.mp run
  obtain ⟨statements, span⟩ := program
  exact .mk (Stmt.resolveTypesAll_elaborate statements resolved filled placed atStatements agrees
    rfl)

end Lu
