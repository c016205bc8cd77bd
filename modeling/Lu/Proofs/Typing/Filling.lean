import Lu.Proofs.Check.Ends
import Lu.Proofs.Check.Slots
import Lu.Proofs.Typing.Elaboration
import Lu.Proofs.Typing.Recorded

namespace Lu

/-!
Finding the types of a program whose names are resolved reads no slot before it is filled and fills
all slots for types.
-/

/-- An expression is typed just if its slots for types are filled. -/
theorem Expr.isSet_of_filled {typed : Bool} {e : Expr} (filled : AllFilled typed e.nodes) :
    e.type.isSet = typed := by
  cases e with
  | «variable» | call => exact (filled _ (.head _)).1
  | literal | assign | binary | unary => exact filled _ (.head _)

theorem ExprNote.setType_ends {note : ExprNote} (unset : note.type.isSet = false) (ty : Ty) :
    Check.Ends (· = { note with type := ⟨some ty⟩ }) (note.setType ty) :=
  .bind (.set unset ty) fun filled _ same => .pure (by rw [same])

/-- The type of a variable is found before any reference to it. -/
theorem Retyped.typed_ends {scopes scopes' : Scopes} {types : VariableTypes} {name : String}
    {s : VariableSymbol} {symbol : Attribute "variable declaration" VariableSymbol}
    (retyped : Retyped scopes types scopes') (found : scopes.lookup name = some (.variable s))
    (stored : symbol.value? = some s) :
    Check.Ends (fun found => found.1.type.isSet = true)
      (Check.lift (symbol.get >>= VariableSymbol.typed types)) := by
  have meaning := retyped.lookup name
  rw [found] at meaning
  obtain ⟨ty, hasType⟩ : ∃ ty, s.HasType types ty := by
    obtain ⟨-, s', -, ⟨set, -⟩ | ⟨unset, ty, known, -⟩⟩ := meaning
    · obtain ⟨ty, known⟩ := Option.isSome_iff_exists.mp set
      exact ⟨ty, .inl known⟩
    · exact ⟨ty, .inr ⟨unset, known⟩⟩
  have run : (symbol.get >>= VariableSymbol.typed types) = .ok (s.withType ty, ty) :=
    bind_eq_ok.mpr ⟨s, Attribute.get_eq_ok.mpr stored, VariableSymbol.typed_iff.mpr ⟨hasType, rfl⟩⟩
  rw [run]
  exact rfl

section Expressions

variable {scopes scopes' : Scopes} {types : VariableTypes}

mutual

theorem Expr.resolveTypes_fills (retyped : Retyped scopes types scopes') :
    ∀ e : Expr, e.Resolved scopes → AllFilled false e.nodes →
      Check.Ends (fun r => AllFilled true r.nodes) (e.resolveTypes types)
  | .literal note value, _, filled => by
    refine .bind (ExprNote.setType_ends (filled _ (.head _)) _) fun note' _ same => .pure ?_
    exact List.forall_mem_singleton.mpr (by subst same; rfl)
  | .variable note name symbol, .variable found stored, filled => by
    obtain ⟨untyped, -⟩ := filled _ (.head _)
    refine .bind (retyped.typed_ends found stored) fun ⟨s, ty⟩ _ set => ?_
    refine .bind (ExprNote.setType_ends untyped ty) fun note' _ same => .pure ?_
    subst same
    exact List.forall_mem_singleton.mpr ⟨rfl, s, rfl, fun _ => set⟩
  | .assign note target value, .assign targetResolved valueResolved, filled => by
    obtain ⟨untyped, filled⟩ := List.forall_mem_cons.mp filled
    obtain ⟨targetFilled, valueFilled⟩ := List.forall_mem_append.mp filled
    refine .bind (target.resolveTypes_fills retyped targetResolved targetFilled)
      fun target' _ targetTyped => ?_
    refine .bind (value.resolveTypes_fills retyped valueResolved valueFilled)
      fun value' _ valueTyped => ?_
    refine .bind (ExprNote.setType_ends untyped .void) fun note' _ same => .pure ?_
    subst same
    exact List.forall_mem_cons.mpr ⟨rfl, List.forall_mem_append.mpr ⟨targetTyped, valueTyped⟩⟩
  | .binary note op left right, .binary leftResolved rightResolved, filled => by
    obtain ⟨untyped, filled⟩ := List.forall_mem_cons.mp filled
    obtain ⟨leftFilled, rightFilled⟩ := List.forall_mem_append.mp filled
    refine .bind (left.resolveTypes_fills retyped leftResolved leftFilled)
      fun left' _ leftTyped => ?_
    refine .bind (right.resolveTypes_fills retyped rightResolved rightFilled)
      fun right' _ rightTyped => ?_
    refine .bind (.get (Expr.isSet_of_filled leftTyped)) fun leftType _ _ => ?_
    refine .bind (.get (Expr.isSet_of_filled rightTyped)) fun rightType _ _ => ?_
    split
    · refine .bind (ExprNote.setType_ends untyped _) fun note' _ same => .pure ?_
      subst same
      exact List.forall_mem_cons.mpr ⟨rfl, List.forall_mem_append.mpr ⟨leftTyped, rightTyped⟩⟩
    · exact .fail
  | .unary note op operand, .unary operandResolved, filled => by
    obtain ⟨untyped, operandFilled⟩ := List.forall_mem_cons.mp filled
    refine .bind (operand.resolveTypes_fills retyped operandResolved operandFilled)
      fun operand' _ operandTyped => ?_
    refine .bind (.get (Expr.isSet_of_filled operandTyped)) fun operandType _ _ => ?_
    split
    · refine .bind (ExprNote.setType_ends untyped _) fun note' _ same => .pure ?_
      subst same
      exact List.forall_mem_cons.mpr ⟨rfl, operandTyped⟩
    · exact .fail
  | .call note name nameSpan args callee, .call argsResolved _ _, filled => by
    obtain ⟨⟨untyped, c, stored, announced⟩, argsFilled⟩ := List.forall_mem_cons.mp filled
    refine .bind (Expr.resolveTypesAll_fills retyped args argsResolved argsFilled)
      fun args' _ argsTyped => ?_
    refine .bind (.get (Option.isSome_iff_exists.mpr ⟨c, stored⟩)) fun found _ _ => ?_
    refine .bind (ExprNote.setType_ends untyped _) fun note' _ same => .pure ?_
    subst same
    exact List.forall_mem_cons.mpr ⟨⟨rfl, c, stored, announced⟩, argsTyped⟩

theorem Expr.resolveTypesAll_fills (retyped : Retyped scopes types scopes') :
    ∀ args : List Expr, (∀ arg ∈ args, arg.Resolved scopes) →
      AllFilled false (Expr.nodes.allNodes args) →
      Check.Ends (fun r => AllFilled true (Expr.nodes.allNodes r))
        (Expr.resolveTypes.resolveAll types args)
  | [], _, _ => .pure (List.forall_mem_nil _)
  | e :: rest, resolved, filled => by
    obtain ⟨headResolved, restResolved⟩ := List.forall_mem_cons.mp resolved
    obtain ⟨headFilled, restFilled⟩ := List.forall_mem_append.mp filled
    refine .bind (e.resolveTypes_fills retyped headResolved headFilled) fun _ _ headTyped => ?_
    refine .bind (Expr.resolveTypesAll_fills retyped rest restResolved restFilled)
      fun _ _ restTyped => .pure ?_
    exact List.forall_mem_append.mpr ⟨headTyped, restTyped⟩

end

theorem VarDecl.resolveTypes_fills (retyped : Retyped scopes types scopes') {kind : VariableKind}
    {decl : VarDecl} (resolved : decl.Resolved scopes kind) (filled : AllFilled false decl.nodes) :
    Check.Ends (fun r => AllFilled true r.1.nodes) (decl.resolveTypes types) := by
  obtain ⟨⟨meaning, s, stored, unset⟩, initFilled⟩ := List.forall_mem_cons.mp filled
  refine .bind (decl.init.resolveTypes_fills retyped resolved.init initFilled)
    fun init _ initTyped => ?_
  refine .bind (.get (Option.isSome_iff_exists.mpr ⟨s, stored⟩)) fun found _ again => ?_
  cases stored.symm.trans again
  have chosen : Check.Ends (fun _ => True) (s.kind.typeOf init) := by
    cases s.kind with
    | iterator => trivial
    | localVar | parameter =>
      exact (Check.Ends.get (Expr.isSet_of_filled initTyped)).mono fun _ _ _ => trivial
  refine .bind chosen fun ty _ _ => .bind (.set unset ty) fun type _ same => .pure ?_
  subst same
  exact List.forall_mem_cons.mpr ⟨⟨meaning, _, rfl, rfl⟩, initTyped⟩

theorem ForInit.resolveTypes_fills (retyped : Retyped scopes types scopes') {init : ForInit}
    (resolved : init.Resolved scopes) (filled : AllFilled false init.nodes) :
    Check.Ends (fun r => AllFilled true r.1.nodes) (init.resolveTypes types) := by
  cases init with
  | letVar decl =>
    exact .bind (VarDecl.resolveTypes_fills retyped resolved filled) fun _ _ typed => .pure typed
  | assign e =>
    exact .bind (e.resolveTypes_fills retyped resolved filled) fun _ _ typed => .pure typed

end Expressions

/-- The run of functions that a list begins with does not matter for the types on the way. -/
theorem Retyped.entering {scopes scopes' : Scopes} {types : VariableTypes}
    (retyped : Retyped scopes types scopes') (inRun : Bool) (statements : List Stmt) :
    Retyped (scopes.entering inRun statements) types (scopes'.entering inRun statements) := by
  cases inRun with
  | true => exact retyped
  | false =>
    refine retyped.bindFunctions (List.forall₂_same.mpr fun decl _ => ?_)
    cases decl
    rfl

mutual

theorem Stmt.resolveTypes_fills :
    ∀ (s : Stmt) {scopes scopes' : Scopes} {types : VariableTypes}, Retyped scopes types scopes' →
      s.Resolved scopes → AllFilled false s.nodes →
      Check.Ends (fun r => AllFilled true r.1.nodes) (s.resolveTypes types)
  | .expr span e, _, _, _, retyped, resolved, filled =>
    .bind (e.resolveTypes_fills retyped resolved filled) fun _ _ typed => .pure typed
  | .letVar span decl, _, _, _, retyped, resolved, filled =>
    .bind (VarDecl.resolveTypes_fills retyped resolved filled) fun _ _ typed => .pure typed
  | .function span decl, _, _, _, retyped, resolved, filled =>
    .bind (decl.resolveTypes_fills retyped resolved filled) fun _ _ typed => .pure typed
  | .block span body, _, _, _, retyped, resolved, filled =>
    .bind (body.resolveTypes_fills retyped resolved filled) fun _ _ typed => .pure typed
  | .ifElse span condition thenBranch none, _, _, _, retyped, resolved, filled => by
    obtain ⟨conditionFilled, thenFilled⟩ := List.forall_mem_append.mp filled
    refine .bind (condition.resolveTypes_fills retyped resolved.1 conditionFilled)
      fun _ _ first => ?_
    refine .bind (thenBranch.resolveTypes_fills retyped resolved.2 thenFilled)
      fun _ _ second => .pure ?_
    exact List.forall_mem_append.mpr ⟨first, second⟩
  | .ifElse span condition thenBranch (some elseBranch), _, _, _, retyped, resolved, filled => by
    obtain ⟨conditionFilled, filled⟩ := List.forall_mem_append.mp filled
    obtain ⟨thenFilled, elseFilled⟩ := List.forall_mem_append.mp filled
    refine .bind (condition.resolveTypes_fills retyped resolved.1 conditionFilled)
      fun _ _ first => ?_
    refine .bind (thenBranch.resolveTypes_fills retyped resolved.2.1 thenFilled)
      fun _ _ second => ?_
    refine .bind (elseBranch.resolveTypes_fills retyped resolved.2.2 elseFilled)
      fun _ _ third => .pure ?_
    exact List.forall_mem_append.mpr ⟨first, List.forall_mem_append.mpr ⟨second, third⟩⟩
  | .whileLoop span condition body, _, _, _, retyped, resolved, filled => by
    obtain ⟨conditionFilled, bodyFilled⟩ := List.forall_mem_append.mp filled
    refine .bind (condition.resolveTypes_fills retyped resolved.1 conditionFilled)
      fun _ _ first => ?_
    refine .bind (body.resolveTypes_fills retyped resolved.2 bodyFilled) fun _ _ second => .pure ?_
    exact List.forall_mem_append.mpr ⟨first, second⟩
  | .forLoop span init condition step body, _, _, _, retyped, resolved, filled => by
    obtain ⟨initFilled, filled⟩ := List.forall_mem_append.mp filled
    obtain ⟨conditionFilled, filled⟩ := List.forall_mem_append.mp filled
    obtain ⟨stepFilled, bodyFilled⟩ := List.forall_mem_append.mp filled
    refine .bind (ForInit.resolveTypes_fills retyped.push resolved.1 initFilled)
      fun ⟨_, inner⟩ atInit first => ?_
    obtain ⟨-, -, within⟩ := ForInit.resolveTypes_keeps retyped.push atInit resolved.1
    refine .bind (condition.resolveTypes_fills within resolved.2.1 conditionFilled)
      fun _ _ second => ?_
    refine .bind (step.resolveTypes_fills within resolved.2.2.1 stepFilled) fun _ _ third => ?_
    refine .bind (body.resolveTypes_fills within resolved.2.2.2 bodyFilled)
      fun _ _ fourth => .pure ?_
    exact List.forall_mem_append.mpr ⟨first, List.forall_mem_append.mpr ⟨second,
      List.forall_mem_append.mpr ⟨third, fourth⟩⟩⟩
  | .breakLoop _, _, _, _, _, _, _ | .continueLoop _, _, _, _, _, _, _
  | .returnValue _ none, _, _, _, _, _, _ => .pure (List.forall_mem_nil _)
  | .returnValue span (some value), _, _, _, retyped, resolved, filled =>
    .bind (value.resolveTypes_fills retyped resolved filled) fun _ _ typed => .pure typed
termination_by structural s => s

theorem Stmt.resolveTypesAll_fills :
    ∀ (statements : List Stmt) {scopes scopes' : Scopes} {inRun : Bool} {types : VariableTypes},
      Retyped scopes types scopes' → Stmt.AllResolved scopes inRun statements →
      AllFilled false (Stmt.allNodes statements) →
      Check.Ends (fun r => AllFilled true (Stmt.allNodes r)) (Stmt.resolveTypesAll types statements)
  | [], _, _, _, _, _, _, _ => .pure (List.forall_mem_nil _)
  | s :: rest, _, _, inRun, _, retyped, ⟨_, headResolved, restResolved⟩, filled => by
    obtain ⟨headFilled, restFilled⟩ := List.forall_mem_append.mp filled
    have within := retyped.entering inRun (s :: rest)
    refine .bind (s.resolveTypes_fills within headResolved headFilled)
      fun ⟨_, after⟩ atHead first => ?_
    obtain ⟨-, -, -, later⟩ := s.resolveTypes_keeps within atHead headResolved
    refine .bind (Stmt.resolveTypesAll_fills rest later restResolved restFilled)
      fun _ _ second => .pure ?_
    exact List.forall_mem_append.mpr ⟨first, second⟩
termination_by structural statements => statements

theorem Block.resolveTypes_fills :
    ∀ (body : Block) {scopes scopes' : Scopes} {types : VariableTypes},
      Retyped scopes types scopes' → body.Resolved scopes → AllFilled false body.nodes →
      Check.Ends (fun r => AllFilled true r.nodes) (body.resolveTypes types)
  | ⟨_, statements⟩, _, _, _, retyped, resolved, filled =>
    .bind (Stmt.resolveTypesAll_fills statements retyped.push resolved filled)
      fun _ _ typed => .pure typed
termination_by structural body => body

theorem FunctionDecl.resolveTypes_fills :
    ∀ (decl : FunctionDecl) {scopes scopes' : Scopes} {types : VariableTypes},
      Retyped scopes types scopes' → decl.Resolved scopes → AllFilled false decl.nodes →
      Check.Ends (fun r => AllFilled true r.nodes) (decl.resolveTypes types)
  | ⟨id, name, nameSpan, params, resultName, body, span, symbol⟩, _, _, _, retyped, resolved,
      filled => by
    obtain ⟨headerFilled, bodyFilled⟩ := List.forall_mem_cons.mp filled
    refine .bind (body.resolveTypes_fills (retyped.push.bindParams resolved.1.eachParam) resolved.2
      bodyFilled) fun _ _ bodyTyped => .pure ?_
    exact List.forall_mem_cons.mpr ⟨headerFilled, bodyTyped⟩
termination_by structural decl => decl

end

/-- Finding the types of a resolved program fills all slots, if it finds no error. -/
theorem Program.resolveTypes_fills {natives : List NativeSignature} {program : Program}
    (resolved : program.Resolved natives) (filled : AllFilled false program.nodes) :
    Check.Ends (fun typed => AllFilled true typed.nodes) program.resolveTypes := by
  rw [Program.resolveTypes_eq]
  exact .bind (Stmt.resolveTypesAll_fills program.statements (.start natives) resolved filled)
    fun _ _ typed => .pure typed

end Lu
