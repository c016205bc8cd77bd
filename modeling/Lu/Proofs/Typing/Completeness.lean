import Lu.Proofs.Typing.Soundness

namespace Lu

/-!
What has a derivation in the type system is accepted, and the types that are found are those of the
derivation.
-/

theorem ExprNote.setType_untyped {note : ExprNote} (untyped : note.type.isSet = false) (ty : Ty) :
    note.setType ty = .ok (note.withType ty) :=
  setType_eq_ok.mpr ⟨Attribute.isSet_eq_false.mp untyped, rfl⟩

section Expressions

variable {types : VariableTypes}

mutual

theorem Expr.Elaborates.accepted : ∀ {e e' : Expr} {ty : Ty}, e.Elaborates types ty e' →
    AllFilled false e.nodes → e.resolveTypes types = .ok e' ∧ e'.checkTypes = .ok ()
  | _, _, _, .literal, filled =>
    ⟨bind_eq_ok.mpr ⟨_, ExprNote.setType_untyped (filled _ (.head _)) _, rfl⟩, rfl⟩
  | _, _, ty, .variable (s := s) stored hasType, filled => by
    have untyped := (filled _ (.head _)).1
    refine ⟨bind_eq_ok.mpr ⟨(s.withType ty, ty), ?_,
      bind_eq_ok.mpr ⟨_, ExprNote.setType_untyped untyped ty, rfl⟩⟩, rfl⟩
    exact Check.lift_eq_ok.mpr (bind_eq_ok.mpr ⟨_, Attribute.get_eq_ok.mpr stored,
      VariableSymbol.typed_iff.mpr ⟨hasType, rfl⟩⟩)
  | _, _, _, .assign _ target value isValue, filled => by
    obtain ⟨untyped, filled⟩ := List.forall_mem_cons.mp filled
    obtain ⟨targetFilled, valueFilled⟩ := List.forall_mem_append.mp filled
    obtain ⟨atTarget, targetAgrees⟩ := target.accepted targetFilled
    obtain ⟨atValue, valueAgrees⟩ := value.accepted valueFilled
    refine ⟨bind_eq_ok.mpr ⟨_, atTarget, bind_eq_ok.mpr ⟨_, atValue,
      bind_eq_ok.mpr ⟨_, ExprNote.setType_untyped untyped _, rfl⟩⟩⟩, ?_⟩
    refine bind_eq_ok.mpr ⟨_, targetAgrees, bind_eq_ok.mpr ⟨_, valueAgrees, ?_⟩⟩
    rw [Check.get_bind target.type]
    exact Expr.expectType_iff.mpr ⟨value.type, isValue⟩
  | _, _, _, .binary left right gives, filled => by
    obtain ⟨untyped, filled⟩ := List.forall_mem_cons.mp filled
    obtain ⟨leftFilled, rightFilled⟩ := List.forall_mem_append.mp filled
    obtain ⟨atLeft, leftAgrees⟩ := left.accepted leftFilled
    obtain ⟨atRight, rightAgrees⟩ := right.accepted rightFilled
    refine ⟨bind_eq_ok.mpr ⟨_, atLeft, bind_eq_ok.mpr ⟨_, atRight, ?_⟩⟩,
      bind_eq_ok.mpr ⟨_, leftAgrees, rightAgrees⟩⟩
    rw [Check.get_bind left.type, Check.get_bind right.type, BinaryOp.gives_iff.mp gives]
    exact bind_eq_ok.mpr ⟨_, ExprNote.setType_untyped untyped _, rfl⟩
  | _, _, _, .unary operand gives, filled => by
    obtain ⟨untyped, operandFilled⟩ := List.forall_mem_cons.mp filled
    obtain ⟨atOperand, agrees⟩ := operand.accepted operandFilled
    refine ⟨bind_eq_ok.mpr ⟨_, atOperand, ?_⟩, agrees⟩
    rw [Check.get_bind operand.type, UnaryOp.gives_iff.mp gives]
    exact bind_eq_ok.mpr ⟨_, ExprNote.setType_untyped untyped _, rfl⟩
  | _, _, _, .call (c := c) stored derived admits, filled => by
    obtain ⟨⟨untyped, -⟩, argsFilled⟩ := List.forall_mem_cons.mp filled
    obtain ⟨atArgs, argsAgree⟩ := derived.accepted argsFilled
    refine ⟨bind_eq_ok.mpr ⟨_, atArgs, ?_⟩, bind_eq_ok.mpr ⟨_, argsAgree, ?_⟩⟩
    · rw [Check.get_bind stored]
      exact bind_eq_ok.mpr ⟨_, ExprNote.setType_untyped untyped _, rfl⟩
    · rw [Check.get_bind stored]
      have length := derived.known.length_eq
      cases c with
      | user function =>
        exact (checkUserArguments_iff derived.known 1 (length.trans admits.length_eq)).mpr admits
      | native signature =>
        exact (checkNativeArguments_iff derived.known 1 (length.trans admits.length_eq)).mpr admits

theorem Expr.AllElaborate.accepted : ∀ {args args' : List Expr} {argTypes : List Ty},
    Expr.AllElaborate types args argTypes args' → AllFilled false (Expr.nodes.allNodes args) →
    Expr.resolveTypes.resolveAll types args = .ok args' ∧ Expr.checkTypes.checkAll args' = .ok ()
  | _, _, _, .nil, _ => ⟨rfl, rfl⟩
  | _, _, _, .cons head rest, filled => by
    obtain ⟨headFilled, restFilled⟩ := List.forall_mem_append.mp filled
    obtain ⟨atHead, headAgrees⟩ := head.accepted headFilled
    obtain ⟨atRest, restAgrees⟩ := rest.accepted restFilled
    exact ⟨bind_eq_ok.mpr ⟨_, atHead, bind_eq_ok.mpr ⟨_, atRest, rfl⟩⟩,
      bind_eq_ok.mpr ⟨_, headAgrees, restAgrees⟩⟩

end

theorem VarDecl.Elaborates.accepted {kind : VariableKind} {decl decl' : VarDecl} {ty : Ty}
    {after : VariableTypes} (elaborates : decl.Elaborates types kind ty decl' after)
    (filled : AllFilled false decl.nodes) (start : kind = .iterator → ty = .int) :
    decl.resolveTypes types = .ok (decl', after) ∧ decl'.checkTypes = .ok () ∧
      decl'.init.type.value? = some ty := by
  obtain ⟨⟨meaning, s, stored, unset⟩, initFilled⟩ := List.forall_mem_cons.mp filled
  cases elaborates with
  | @mk s' _ init' stored' sameKind derived isValue annotated =>
    cases stored.symm.trans stored'
    obtain ⟨atInit, initAgrees⟩ := derived.accepted initFilled
    have typeOf : s.kind.typeOf init' = .ok ty := by
      cases loop : s.kind with
      | iterator =>
        rw [start (sameKind ▸ loop)]
        rfl
      | localVar | parameter => exact Check.lift_eq_ok.mpr (Attribute.get_eq_ok.mpr derived.type)
    have set : s.type.set ty = .ok ⟨some ty⟩ :=
      Attribute.set_eq_ok.mpr ⟨Attribute.isSet_eq_false.mp unset, rfl⟩
    refine ⟨bind_eq_ok.mpr ⟨_, atInit, ?_⟩, ?_, derived.type⟩
    · rw [Check.get_bind stored, typeOf]
      exact bind_eq_ok.mpr ⟨_, rfl, bind_eq_ok.mpr ⟨_, Check.lift_eq_ok.mpr set, rfl⟩⟩
    · exact Iff.mpr (VarDecl.checkTypes_iff derived.type meaning) ⟨initAgrees, isValue, annotated⟩

theorem ForInit.Elaborates.accepted {init init' : ForInit} {after : VariableTypes}
    (elaborates : init.Elaborates types init' after) (filled : AllFilled false init.nodes) :
    init.resolveTypes types = .ok (init', after) ∧ init'.checkTypes = .ok () := by
  cases elaborates with
  | letVar decl =>
    obtain ⟨atDecl, agrees, known⟩ := decl.accepted filled fun _ => rfl
    exact ⟨bind_eq_ok.mpr ⟨_, atDecl, rfl⟩,
      bind_eq_ok.mpr ⟨_, agrees, Expr.expectType_iff.mpr ⟨known, .inl rfl⟩⟩⟩
  | @assign e ty e' derived start =>
    obtain ⟨atExpr, agrees⟩ := derived.accepted filled
    refine ⟨bind_eq_ok.mpr ⟨_, atExpr, rfl⟩, bind_eq_ok.mpr ⟨_, agrees, ?_⟩⟩
    cases e' with
    | assign note target value => exact Expr.expectType_iff.mpr ⟨start _ _ _ rfl, .inl rfl⟩
    | literal | «variable» | binary | unary | call => rfl

theorem Expr.Elaborates.expected {e e' : Expr} {ty : Ty} (derived : e.Elaborates types ty e')
    (place : TypePlace) (isValue : ty.IsValue) : e'.expectType place ty = .ok () :=
  Expr.expectType_iff.mpr ⟨derived.type, isValue⟩

end Expressions

/-- At the end of a function with a result there is no `return` without a value. -/
theorem Stmt.AllElaborate.last {result : Option Ty} {types : VariableTypes}
    {statements statements' : List Stmt} {span : Span}
    (derived : Stmt.AllElaborate result types statements statements')
    (last : statements'.getLast? = some (.returnValue span none)) : result = some .void := by
  induction statements' generalizing types statements with
  | nil => cases last
  | cons s rest ih =>
    cases derived with
    | cons head later =>
      cases rest with
      | nil =>
        cases last
        cases head
        rfl
      | cons next rest => exact ih later (by simpa using last)

mutual

theorem Stmt.Elaborates.accepted : ∀ {result : Option Ty} {types after : VariableTypes}
    {s s' : Stmt}, s.Elaborates result types s' after → AllFilled false s.nodes →
    s.resolveTypes types = .ok (s', after) ∧
      ∀ function, resultAround function = result → s'.checkTypes function = .ok ()
  | _, _, _, _, _, .expr derived, filled => by
    obtain ⟨atExpr, agrees⟩ := derived.accepted filled
    exact ⟨bind_eq_ok.mpr ⟨_, atExpr, rfl⟩, fun _ _ => agrees⟩
  | _, _, _, _, _, .letVar derived, filled => by
    obtain ⟨atDecl, agrees, -⟩ := derived.accepted filled nofun
    exact ⟨bind_eq_ok.mpr ⟨_, atDecl, rfl⟩, fun _ _ => agrees⟩
  | _, _, _, _, _, .function derived, filled => by
    obtain ⟨atDecl, agrees⟩ := derived.accepted filled
    exact ⟨bind_eq_ok.mpr ⟨_, atDecl, rfl⟩, fun _ _ => agrees⟩
  | _, _, _, _, _, .block derived, filled => by
    obtain ⟨atBody, agrees⟩ := derived.accepted filled
    exact ⟨bind_eq_ok.mpr ⟨_, atBody, rfl⟩, agrees⟩
  | _, _, _, _, _, .ifThen condition thenBranch, filled => by
    obtain ⟨conditionFilled, thenFilled⟩ := List.forall_mem_append.mp filled
    obtain ⟨atCondition, conditionAgrees⟩ := condition.accepted conditionFilled
    obtain ⟨atThen, thenAgrees⟩ := thenBranch.accepted thenFilled
    refine ⟨bind_eq_ok.mpr ⟨_, atCondition, bind_eq_ok.mpr ⟨_, atThen, rfl⟩⟩,
      fun function same => bind_eq_ok.mpr ⟨_, conditionAgrees, ?_⟩⟩
    exact bind_eq_ok.mpr ⟨_, condition.expected _ (.inl rfl), thenAgrees function same⟩
  | _, _, _, _, _, .ifElse condition thenBranch elseBranch, filled => by
    obtain ⟨conditionFilled, filled⟩ := List.forall_mem_append.mp filled
    obtain ⟨thenFilled, elseFilled⟩ := List.forall_mem_append.mp filled
    obtain ⟨atCondition, conditionAgrees⟩ := condition.accepted conditionFilled
    obtain ⟨atThen, thenAgrees⟩ := thenBranch.accepted thenFilled
    obtain ⟨atElse, elseAgrees⟩ := elseBranch.accepted elseFilled
    refine ⟨bind_eq_ok.mpr ⟨_, atCondition, bind_eq_ok.mpr ⟨_, atThen,
      bind_eq_ok.mpr ⟨_, atElse, rfl⟩⟩⟩,
      fun function same => bind_eq_ok.mpr ⟨_, conditionAgrees, ?_⟩⟩
    exact bind_eq_ok.mpr ⟨_, condition.expected _ (.inl rfl),
      bind_eq_ok.mpr ⟨_, thenAgrees function same, elseAgrees function same⟩⟩
  | _, _, _, _, _, .whileLoop condition body, filled => by
    obtain ⟨conditionFilled, bodyFilled⟩ := List.forall_mem_append.mp filled
    obtain ⟨atCondition, conditionAgrees⟩ := condition.accepted conditionFilled
    obtain ⟨atBody, bodyAgrees⟩ := body.accepted bodyFilled
    refine ⟨bind_eq_ok.mpr ⟨_, atCondition, bind_eq_ok.mpr ⟨_, atBody, rfl⟩⟩,
      fun function same => bind_eq_ok.mpr ⟨_, conditionAgrees, ?_⟩⟩
    exact bind_eq_ok.mpr ⟨_, condition.expected _ (.inl rfl), bodyAgrees function same⟩
  | _, _, _, _, _, .forLoop init condition step body, filled => by
    obtain ⟨initFilled, filled⟩ := List.forall_mem_append.mp filled
    obtain ⟨conditionFilled, filled⟩ := List.forall_mem_append.mp filled
    obtain ⟨stepFilled, bodyFilled⟩ := List.forall_mem_append.mp filled
    obtain ⟨atInit, initAgrees⟩ := init.accepted initFilled
    obtain ⟨atCondition, conditionAgrees⟩ := condition.accepted conditionFilled
    obtain ⟨atStep, stepAgrees⟩ := step.accepted stepFilled
    obtain ⟨atBody, bodyAgrees⟩ := body.accepted bodyFilled
    refine ⟨bind_eq_ok.mpr ⟨_, atInit, bind_eq_ok.mpr ⟨_, atCondition, bind_eq_ok.mpr ⟨_, atStep,
      bind_eq_ok.mpr ⟨_, atBody, rfl⟩⟩⟩⟩, fun function same => bind_eq_ok.mpr ⟨_, initAgrees, ?_⟩⟩
    refine bind_eq_ok.mpr ⟨_, conditionAgrees, ?_⟩
    exact bind_eq_ok.mpr ⟨_, condition.expected _ (.inl rfl),
      bind_eq_ok.mpr ⟨_, stepAgrees, bodyAgrees function same⟩⟩
  | _, _, _, _, _, .breakLoop, _ | _, _, _, _, _, .continueLoop, _ => ⟨rfl, fun _ _ => rfl⟩
  | _, _, _, _, _, .returnNothing, _ => by
    refine ⟨rfl, fun function same => ?_⟩
    obtain ⟨around, rfl, result⟩ := Option.map_eq_some_iff.mp same
    exact checkReturned_nothing.mpr result
  | _, _, _, _, _, .returnVoid value, filled => by
    obtain ⟨atValue, agrees⟩ := value.accepted filled
    refine ⟨bind_eq_ok.mpr ⟨_, atValue, rfl⟩, fun function same => bind_eq_ok.mpr ⟨_, agrees, ?_⟩⟩
    obtain ⟨around, rfl, result⟩ := Option.map_eq_some_iff.mp same
    exact (checkReturned_iff value.type).mpr ⟨result.symm, .inl rfl⟩
  | _, _, _, _, _, .returnValue value isValue, filled => by
    obtain ⟨atValue, agrees⟩ := value.accepted filled
    refine ⟨bind_eq_ok.mpr ⟨_, atValue, rfl⟩, fun function same => bind_eq_ok.mpr ⟨_, agrees, ?_⟩⟩
    obtain ⟨around, rfl, result⟩ := Option.map_eq_some_iff.mp same
    exact (checkReturned_iff value.type).mpr ⟨result.symm, .inr isValue⟩

theorem Stmt.AllElaborate.accepted : ∀ {result : Option Ty} {types : VariableTypes}
    {statements statements' : List Stmt}, Stmt.AllElaborate result types statements statements' →
    AllFilled false (Stmt.allNodes statements) →
    Stmt.resolveTypesAll types statements = .ok statements' ∧
      ∀ function, resultAround function = result →
        Stmt.checkTypesAll function statements' = .ok ()
  | _, _, _, _, .nil, _ => ⟨rfl, fun _ _ => rfl⟩
  | _, _, _, _, .cons head rest, filled => by
    obtain ⟨headFilled, restFilled⟩ := List.forall_mem_append.mp filled
    obtain ⟨atHead, headAgrees⟩ := head.accepted headFilled
    obtain ⟨atRest, restAgrees⟩ := rest.accepted restFilled
    exact ⟨bind_eq_ok.mpr ⟨_, atHead, bind_eq_ok.mpr ⟨_, atRest, rfl⟩⟩, fun function same =>
      bind_eq_ok.mpr ⟨_, headAgrees function same, restAgrees function same⟩⟩

theorem Block.Elaborates.accepted : ∀ {result : Option Ty} {types : VariableTypes}
    {body body' : Block}, body.Elaborates result types body' → AllFilled false body.nodes →
    body.resolveTypes types = .ok body' ∧
      ∀ function, resultAround function = result → body'.checkTypes function = .ok ()
  | _, _, _, _, .mk derived, filled => by
    obtain ⟨atStatements, agrees⟩ := derived.accepted filled
    exact ⟨bind_eq_ok.mpr ⟨_, atStatements, rfl⟩, agrees⟩

theorem FunctionDecl.Elaborates.accepted : ∀ {types : VariableTypes} {decl decl' : FunctionDecl},
    decl.Elaborates types decl' → AllFilled false decl.nodes →
    decl.resolveTypes types = .ok decl' ∧ decl'.checkTypes = .ok ()
  | _, _, _, .mk stored body ends, filled => by
    obtain ⟨-, bodyFilled⟩ := List.forall_mem_cons.mp filled
    obtain ⟨atBody, agrees⟩ := body.accepted bodyFilled
    refine ⟨bind_eq_ok.mpr ⟨_, atBody, rfl⟩, ?_⟩
    refine bind_eq_ok.mpr ⟨_, Check.lift_eq_ok.mpr (Attribute.get_eq_ok.mpr stored), ?_⟩
    refine bind_eq_ok.mpr ⟨_, agrees _ rfl, ?_⟩
    obtain ⟨span, value, last⟩ := ends
    refine checkFinalReturn_iff.mpr ⟨span, value, last, ?_⟩
    rintro rfl
    cases body with
    | mk derived => exact Option.some.inj (derived.last last)

end

end Lu
