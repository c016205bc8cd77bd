import Lu.Check.Placement
import Lu.Proofs.Scoping.Resolved
import Lu.Proofs.Tree.Functions
import Lu.Proofs.Typing.Inference
import Lu.Proofs.Typing.Recorded
import Mathlib.Data.List.Forall2

namespace Lu

/-!
Finding the types keeps the program resolved. The symbols get their types, those in the declarations
and those in the references alike, and nothing else changes.
-/

namespace Scopes

theorem lookup_push (scopes : Scopes) (name : String) :
    scopes.push.lookup name = scopes.lookup name := by
  simp [lookup, push, List.findSome?]

theorem lookup_bind (scopes : Scopes) (name other : String) (declaration : Declaration) :
    (scopes.bind name declaration).lookup other =
      if other = name then some declaration else scopes.lookup other := by
  rcases scopes with ⟨_ | ⟨inner, outer⟩⟩ <;> by_cases same : other = name <;>
    simp [lookup, bind, List.findSome?, List.lookup_cons, same, beq_eq_false_iff_ne.mpr]

/-- At the start only built-in functions have names. -/
theorem ofNatives_lookup {natives : List NativeSignature} {name : String}
    {declaration : Declaration} (found : (ofNatives natives).lookup name = some declaration) :
    ∃ native, declaration = .function (.native native) := by
  simp only [lookup, ofNatives, List.findSome?_cons, List.lookup_nil, List.findSome?_nil] at found
  split at found
  · rename_i known
    obtain ⟨l₁, l₂, same, -⟩ := List.lookup_eq_some_iff.mp known
    have member := same ▸ List.mem_append_right l₁ (List.mem_cons_self ..)
    obtain ⟨native, -, pair⟩ := List.mem_map.mp member
    cases found
    exact ⟨native, (Prod.mk.inj pair).2.symm⟩
  · cases found

theorem isNew_push (scopes : Scopes) (name : String) : scopes.push.IsNew name := rfl

theorem isNew_bind (scopes : Scopes) (name other : String) (declaration : Declaration) :
    (scopes.bind name declaration).IsNew other ↔ other ≠ name ∧ scopes.IsNew other := by
  rcases scopes with ⟨_ | ⟨inner, outer⟩⟩ <;> by_cases same : other = name <;>
    simp [IsNew, bind, List.lookup_cons, same, beq_eq_false_iff_ne.mpr]

end Scopes

/-- A variable with its type. -/
def VariableSymbol.withType (s : VariableSymbol) (ty : Ty) : VariableSymbol :=
  { s with type := ⟨some ty⟩ }

/-- The same scopes before and after the types of the variables are found, with the types on the
way. -/
inductive Retyped : Scopes → VariableTypes → Scopes → Prop
  | start (natives) : Retyped (.ofNatives natives) [] (.ofNatives natives)
  | push {scopes types scopes'} : Retyped scopes types scopes' →
      Retyped scopes.push types scopes'.push
  | function {scopes types scopes'} (name callee) : Retyped scopes types scopes' →
      Retyped (scopes.bind name (.function callee)) types (scopes'.bind name (.function callee))
  | parameter {scopes types scopes'} (s : VariableSymbol) : s.type.isSet = true →
      Retyped scopes types scopes' →
      Retyped (scopes.bind s.name (.variable s)) types (scopes'.bind s.name (.variable s))
  | letVar {scopes types scopes'} (s : VariableSymbol) (ty) : s.type.value? = none →
      Retyped scopes types scopes' →
      Retyped (scopes.bind s.name (.variable s)) ((s, ty) :: types)
        (scopes'.bind s.name (.variable (s.withType ty)))

/-- What a name means after the types are found. -/
def Retyped.Meaning (types : VariableTypes) (name : String) :
    Option Declaration → Option Declaration → Prop
  | none, after => after = none
  | some (.function callee), after => after = some (.function callee)
  | some (.variable s), after => s.name = name ∧ ∃ s', after = some (.variable s') ∧
      (s.type.isSet = true ∧ s' = s ∨
        s.type.value? = none ∧ ∃ ty, types.lookup s = some ty ∧ s' = s.withType ty)

/-- The symbol that a name means is the first of its name on the way, so its type is found. -/
theorem Retyped.lookup {scopes scopes' : Scopes} {types : VariableTypes}
    (retyped : Retyped scopes types scopes') (name : String) :
    Retyped.Meaning types name (scopes.lookup name) (scopes'.lookup name) := by
  induction retyped with
  | start natives =>
    cases found : (Scopes.ofNatives natives).lookup name with
    | none => rfl
    | some declaration =>
      obtain ⟨native, rfl⟩ := Scopes.ofNatives_lookup found
      rfl
  | push _ ih => simpa only [Scopes.lookup_push] using ih
  | function other callee _ ih =>
    simp only [Scopes.lookup_bind]
    split
    · rfl
    · exact ih
  | parameter s set _ ih =>
    simp only [Scopes.lookup_bind]
    split
    · rename_i same
      exact ⟨same.symm, s, rfl, .inl ⟨set, rfl⟩⟩
    · exact ih
  | @letVar scopes types scopes' s ty unset _ ih =>
    simp only [Scopes.lookup_bind]
    split
    · rename_i same
      exact ⟨same.symm, _, rfl, .inr ⟨unset, ty, by simp, rfl⟩⟩
    · rename_i different
      cases found : scopes.lookup name with
      | none => rw [found] at ih; exact ih
      | some declaration =>
        rw [found] at ih
        cases declaration with
        | function callee => exact ih
        | «variable» old =>
          obtain ⟨sameName, s', after, filled⟩ := ih
          refine ⟨sameName, s', after, filled.imp_right fun ⟨noType, oldType, known, shape⟩ => ?_⟩
          have other : (old == s) = false :=
            beq_eq_false_iff_ne.mpr fun same => different (same ▸ sameName.symm)
          exact ⟨noType, oldType, by rw [List.lookup_cons, other]; exact known, shape⟩

theorem Retyped.isNew {scopes scopes' : Scopes} {types : VariableTypes}
    (retyped : Retyped scopes types scopes') (name : String) :
    scopes.IsNew name ↔ scopes'.IsNew name := by
  induction retyped with
  | start natives => exact Iff.rfl
  | push _ _ => simp only [Scopes.isNew_push]
  | function _ _ _ ih | parameter _ _ _ ih | letVar _ _ _ _ ih =>
    simp only [Scopes.isNew_bind, ih]

/-- A reference gets the symbol that its name means after the types are found. -/
theorem Retyped.variable_lookup {scopes scopes' : Scopes} {types : VariableTypes} {name : String}
    {s filled : VariableSymbol} {ty : Ty} (retyped : Retyped scopes types scopes')
    (found : scopes.lookup name = some (.variable s)) (typed : s.typed types = .ok (filled, ty)) :
    scopes'.lookup name = some (.variable filled) := by
  have meaning := retyped.lookup name
  rw [found] at meaning
  obtain ⟨-, s', after, kept | ⟨unset, ty', known, rfl⟩⟩ := meaning
  · obtain ⟨set, rfl⟩ := kept
    obtain ⟨-, rfl⟩ | ⟨unset, -⟩ := VariableSymbol.typed_eq_ok typed
    · exact after
    · simp [Attribute.isSet, unset] at set
  · obtain ⟨set, -⟩ | ⟨-, known', rfl⟩ := VariableSymbol.typed_eq_ok typed
    · simp [unset] at set
    · cases known.symm.trans known'
      exact after

theorem Retyped.function_lookup {scopes scopes' : Scopes} {types : VariableTypes} {name : String}
    {callee : Callee} (retyped : Retyped scopes types scopes')
    (found : scopes.lookup name = some (.function callee)) :
    scopes'.lookup name = some (.function callee) := by
  have meaning := retyped.lookup name
  rw [found] at meaning
  exact meaning

theorem Retyped.bindParams {scopes scopes' : Scopes} {types : VariableTypes} {params : List Param}
    (retyped : Retyped scopes types scopes') (eachParam : ∀ param ∈ params, param.Resolved) :
    Retyped (scopes.bindParams params) types (scopes'.bindParams params) := by
  induction params generalizing scopes scopes' with
  | nil => exact retyped
  | cons param rest ih =>
    have resolved := eachParam param (List.mem_cons_self ..)
    have step : Retyped (scopes.bind param.name (.variable param.binding)) types
        (scopes'.bind param.name (.variable param.binding)) := by
      rw [← resolved.name]
      exact .parameter param.binding resolved.type retyped
    exact ih step fun other member => eachParam other (List.mem_cons_of_mem _ member)

/-- Two functions that only differ in their bodies look the same from outside. -/
def FunctionDecl.SameHeader (decl decl' : FunctionDecl) : Prop :=
  decl' = { decl with body := decl'.body }

theorem FunctionDecl.SameHeader.binding {decl decl' : FunctionDecl} (same : decl.SameHeader decl') :
    decl'.binding = decl.binding := by
  rw [same]
  rfl

theorem Retyped.bindFunctions {scopes scopes' : Scopes} {types : VariableTypes}
    {decls decls' : List FunctionDecl} (retyped : Retyped scopes types scopes')
    (same : List.Forall₂ FunctionDecl.SameHeader decls decls') :
    Retyped (scopes.bindFunctions decls) types (scopes'.bindFunctions decls') := by
  induction same generalizing scopes scopes' with
  | nil => exact retyped
  | @cons decl decl' rest rest' sameHead _ ih =>
    have name : decl'.name = decl.name := by rw [sameHead]
    have step : Retyped (scopes.bind decl.name (.function (.user decl.binding))) types
        (scopes'.bind decl'.name (.function (.user decl'.binding))) := by
      rw [name, sameHead.binding]
      exact .function decl.name (.user decl.binding) retyped
    exact ih step

theorem Retyped.newFunctions {scopes scopes' : Scopes} {types : VariableTypes}
    {decls decls' : List FunctionDecl} (retyped : Retyped scopes types scopes')
    (same : List.Forall₂ FunctionDecl.SameHeader decls decls')
    (allNew : ∀ decl ∈ decls, scopes.IsNew decl.name) :
    ∀ decl' ∈ decls', scopes'.IsNew decl'.name := by
  induction same with
  | nil => simp
  | @cons decl decl' rest rest' sameHead _ ih =>
    have name : decl'.name = decl.name := by rw [sameHead]
    intro other member
    rcases List.mem_cons.mp member with rfl | member
    · rw [name]
      exact (retyped.isNew decl.name).mp (allNew decl (List.mem_cons_self ..))
    · exact ih (fun d inRest => allNew d (List.mem_cons_of_mem _ inRest)) other member

/-- Where an expression may stand does not depend on the types in it. -/
structure Expr.SamePlace (e e' : Expr) : Prop where
  placement : e'.checkPlacement = e.checkPlacement
  span : e'.span = e.span
  isVariable : e'.isVariable = e.isVariable

mutual

theorem Expr.resolveTypes_keeps {scopes scopes' : Scopes} {types : VariableTypes}
    (retyped : Retyped scopes types scopes') :
    ∀ (e : Expr) {e' : Expr}, e.resolveTypes types = .ok e' → e.Resolved scopes →
      e'.Resolved scopes' ∧ e.SamePlace e'
  | .literal note value, _, run, _ => by
    obtain ⟨note', filled, run⟩ := bind_eq_ok.mp run
    cases run
    obtain ⟨-, rfl⟩ := ExprNote.setType_eq_ok.mp filled
    exact ⟨.literal, rfl, rfl, rfl⟩
  | .variable note name symbol, _, run, .variable found stored => by
    obtain ⟨⟨filledSymbol, ty⟩, known, run⟩ := bind_eq_ok.mp run
    obtain ⟨note', filled, run⟩ := bind_eq_ok.mp run
    cases run
    obtain ⟨-, rfl⟩ := ExprNote.setType_eq_ok.mp filled
    obtain ⟨s, atSymbol, typed⟩ := bind_eq_ok.mp (Check.lift_eq_ok.mp known)
    cases (Attribute.get_eq_ok.mp atSymbol).symm.trans stored
    exact ⟨.variable (retyped.variable_lookup found typed) rfl, rfl, rfl, rfl⟩
  | .assign note target value, _, run, .assign targetResolved valueResolved => by
    obtain ⟨target', atTarget, run⟩ := bind_eq_ok.mp run
    obtain ⟨value', atValue, run⟩ := bind_eq_ok.mp run
    obtain ⟨note', filled, run⟩ := bind_eq_ok.mp run
    cases run
    obtain ⟨-, rfl⟩ := ExprNote.setType_eq_ok.mp filled
    obtain ⟨targetKept, targetPlace⟩ := target.resolveTypes_keeps retyped atTarget targetResolved
    obtain ⟨valueKept, valuePlace⟩ := value.resolveTypes_keeps retyped atValue valueResolved
    refine ⟨.assign targetKept valueKept, ?_, rfl, rfl⟩
    simp only [Expr.checkPlacement, targetPlace.placement, targetPlace.span,
      targetPlace.isVariable, valuePlace.placement]
  | .binary note op left right, _, run, .binary leftResolved rightResolved => by
    obtain ⟨left', atLeft, run⟩ := bind_eq_ok.mp run
    obtain ⟨right', atRight, run⟩ := bind_eq_ok.mp run
    obtain ⟨leftType, -, run⟩ := bind_eq_ok.mp run
    obtain ⟨rightType, -, run⟩ := bind_eq_ok.mp run
    split at run
    · obtain ⟨note', filled, run⟩ := bind_eq_ok.mp run
      cases run
      obtain ⟨-, rfl⟩ := ExprNote.setType_eq_ok.mp filled
      obtain ⟨leftKept, leftPlace⟩ := left.resolveTypes_keeps retyped atLeft leftResolved
      obtain ⟨rightKept, rightPlace⟩ := right.resolveTypes_keeps retyped atRight rightResolved
      refine ⟨.binary leftKept rightKept, ?_, rfl, rfl⟩
      simp only [Expr.checkPlacement, leftPlace.placement, rightPlace.placement]
    · cases run
  | .unary note op operand, _, run, .unary operandResolved => by
    obtain ⟨operand', atOperand, run⟩ := bind_eq_ok.mp run
    obtain ⟨operandType, -, run⟩ := bind_eq_ok.mp run
    split at run
    · obtain ⟨note', filled, run⟩ := bind_eq_ok.mp run
      cases run
      obtain ⟨-, rfl⟩ := ExprNote.setType_eq_ok.mp filled
      obtain ⟨operandKept, operandPlace⟩ :=
        operand.resolveTypes_keeps retyped atOperand operandResolved
      exact ⟨.unary operandKept, operandPlace.placement, rfl, rfl⟩
    · cases run
  | .call note name nameSpan args callee, _, run, .call argsResolved found stored => by
    obtain ⟨args', atArgs, run⟩ := bind_eq_ok.mp run
    obtain ⟨c, -, run⟩ := bind_eq_ok.mp run
    obtain ⟨note', filled, run⟩ := bind_eq_ok.mp run
    cases run
    obtain ⟨-, rfl⟩ := ExprNote.setType_eq_ok.mp filled
    obtain ⟨argsKept, argsPlace, length⟩ :=
      Expr.resolveTypesAll_keeps retyped args atArgs argsResolved
    refine ⟨.call argsKept (retyped.function_lookup found) stored, ?_, rfl, rfl⟩
    simp only [Expr.checkPlacement, argsPlace, length]

theorem Expr.resolveTypesAll_keeps {scopes scopes' : Scopes} {types : VariableTypes}
    (retyped : Retyped scopes types scopes') :
    ∀ (args : List Expr) {args' : List Expr},
      Expr.resolveTypes.resolveAll types args = .ok args' → (∀ arg ∈ args, arg.Resolved scopes) →
      (∀ arg ∈ args', arg.Resolved scopes') ∧
        Expr.checkPlacement.checkAll args' = Expr.checkPlacement.checkAll args ∧
        args'.length = args.length
  | [], _, run, _ => by
    cases run
    simp
  | e :: rest, _, run, resolved => by
    obtain ⟨e', atHead, run⟩ := bind_eq_ok.mp run
    obtain ⟨rest', atRest, run⟩ := bind_eq_ok.mp run
    cases run
    obtain ⟨headKept, headPlace⟩ :=
      e.resolveTypes_keeps retyped atHead (resolved e (List.mem_cons_self ..))
    obtain ⟨restKept, restPlace, length⟩ := Expr.resolveTypesAll_keeps retyped rest atRest
      fun arg member => resolved arg (List.mem_cons_of_mem _ member)
    refine ⟨?_, ?_, by simp [length]⟩
    · intro arg member
      rcases List.mem_cons.mp member with rfl | member
      · exact headKept
      · exact restKept arg member
    · simp only [Expr.checkPlacement.checkAll, headPlace.placement, restPlace]

end

theorem VarDecl.resolveTypes_keeps {scopes scopes' : Scopes} {types after : VariableTypes}
    {kind : VariableKind} {decl decl' : VarDecl} (retyped : Retyped scopes types scopes')
    (run : decl.resolveTypes types = .ok (decl', after)) (resolved : decl.Resolved scopes kind) :
    decl'.Resolved scopes' kind ∧ decl'.init.checkPlacement = decl.init.checkPlacement ∧
      Retyped (scopes.bind decl.name (.variable decl.binding)) after
        (scopes'.bind decl'.name (.variable decl'.binding)) := by
  obtain ⟨init, s, ty, atInit, known, -, -, unset, rfl, rfl⟩ := VarDecl.resolveTypes_eq_ok run
  obtain ⟨initResolved, symbol, name, sameKind, isNew⟩ := resolved
  obtain ⟨initKept, place⟩ := decl.init.resolveTypes_keeps retyped atInit initResolved
  obtain rfl : s = decl.binding := Option.some.inj (known.symm.trans symbol)
  refine ⟨⟨initKept, rfl, name, sameKind, (retyped.isNew decl.name).mp isNew⟩, place.placement, ?_⟩
  have step := Retyped.letVar decl.binding ty unset retyped
  rw [name] at step
  exact step

theorem ForInit.resolveTypes_keeps {scopes scopes' : Scopes} {types after : VariableTypes}
    {init init' : ForInit} (retyped : Retyped scopes types scopes')
    (run : init.resolveTypes types = .ok (init', after)) (resolved : init.Resolved scopes) :
    init'.Resolved scopes' ∧ init'.checkPlacement = init.checkPlacement ∧
      Retyped (scopes.afterInit init) after (scopes'.afterInit init') := by
  cases init with
  | letVar decl =>
    obtain ⟨⟨decl', bound⟩, atDecl, run⟩ := bind_eq_ok.mp run
    cases run
    exact VarDecl.resolveTypes_keeps retyped atDecl resolved
  | assign e =>
    obtain ⟨e', atExpr, run⟩ := bind_eq_ok.mp run
    cases run
    obtain ⟨kept, place⟩ := e.resolveTypes_keeps retyped atExpr resolved
    exact ⟨kept, place.placement, retyped⟩

theorem Stmt.resolveTypes_isFunction {types after : VariableTypes} {s s' : Stmt}
    (run : s.resolveTypes types = .ok (s', after)) : s'.isFunction = s.isFunction := by
  unfold Stmt.resolveTypes at run
  split at run <;> simp only [bind_eq_ok, pure_eq_ok, Prod.mk.injEq] at run <;>
    grind [Stmt.isFunction]

theorem FunctionDecl.resolveTypes_header {types : VariableTypes} {decl decl' : FunctionDecl}
    (run : decl.resolveTypes types = .ok decl') : decl.SameHeader decl' := by
  cases decl
  obtain ⟨body', -, run⟩ := bind_eq_ok.mp run
  cases run
  rfl

theorem Stmt.resolveTypesAll_leading {types : VariableTypes} {statements statements' : List Stmt}
    (run : Stmt.resolveTypesAll types statements = .ok statements') :
    List.Forall₂ FunctionDecl.SameHeader (leadingFunctions statements)
      (leadingFunctions statements') := by
  induction statements generalizing types statements' with
  | nil => cases run; exact .nil
  | cons s rest ih =>
    obtain ⟨⟨s', after⟩, atHead, run⟩ := bind_eq_ok.mp run
    obtain ⟨rest', atRest, run⟩ := bind_eq_ok.mp run
    cases run
    cases kind : s.isFunction with
    | true =>
      obtain ⟨span, decl, rfl⟩ : ∃ span decl, s = .function span decl := by
        cases s <;> first | exact ⟨_, _, rfl⟩ | cases kind
      obtain ⟨decl', atDecl, run⟩ := bind_eq_ok.mp atHead
      cases run
      exact .cons (FunctionDecl.resolveTypes_header atDecl) (ih atRest)
    | false =>
      have kind' := (Stmt.resolveTypes_isFunction atHead).trans kind
      rw [leadingFunctions_eq_nil rest kind, leadingFunctions_eq_nil rest' kind']
      exact .nil

mutual

theorem Stmt.resolveTypes_keeps :
    ∀ (s : Stmt) {scopes scopes' : Scopes} {types after : VariableTypes} {s' : Stmt},
      Retyped scopes types scopes' → s.resolveTypes types = .ok (s', after) → s.Resolved scopes →
      s'.Resolved scopes' ∧ (∀ around, s'.checkPlacement around = s.checkPlacement around) ∧
        s'.functions.map (·.id) = s.functions.map (·.id) ∧
        Retyped (scopes.after s) after (scopes'.after s')
  | .expr span e, _, _, _, _, _, retyped, run, resolved => by
    obtain ⟨e', atExpr, run⟩ := bind_eq_ok.mp run
    cases run
    obtain ⟨kept, place⟩ := e.resolveTypes_keeps retyped atExpr resolved
    exact ⟨kept, fun _ => place.placement, rfl, retyped⟩
  | .letVar span decl, _, _, _, _, _, retyped, run, resolved => by
    obtain ⟨⟨decl', bound⟩, atDecl, run⟩ := bind_eq_ok.mp run
    cases run
    obtain ⟨kept, placement, later⟩ := VarDecl.resolveTypes_keeps retyped atDecl resolved
    exact ⟨kept, fun _ => placement, rfl, later⟩
  | .function span decl, _, _, _, _, _, retyped, run, resolved => by
    obtain ⟨decl', atDecl, run⟩ := bind_eq_ok.mp run
    cases run
    obtain ⟨kept, placement, ids⟩ := decl.resolveTypes_keeps retyped atDecl resolved
    exact ⟨kept, fun _ => placement, ids, retyped⟩
  | .block span body, _, _, _, _, _, retyped, run, resolved => by
    obtain ⟨body', atBody, run⟩ := bind_eq_ok.mp run
    cases run
    obtain ⟨kept, placement, ids⟩ := body.resolveTypes_keeps retyped atBody resolved
    exact ⟨kept, placement, ids, retyped⟩
  | .ifElse span condition thenBranch none, _, _, _, _, _, retyped, run, resolved => by
    obtain ⟨condition', atCondition, run⟩ := bind_eq_ok.mp run
    obtain ⟨thenBranch', atThen, run⟩ := bind_eq_ok.mp run
    cases run
    obtain ⟨conditionKept, place⟩ := condition.resolveTypes_keeps retyped atCondition resolved.1
    obtain ⟨thenKept, thenPlacement, ids⟩ := thenBranch.resolveTypes_keeps retyped atThen resolved.2
    refine ⟨⟨conditionKept, thenKept⟩, fun around => ?_, ids, retyped⟩
    simp only [Stmt.checkPlacement, place.placement, thenPlacement]
  | .ifElse span condition thenBranch (some elseBranch), _, _, _, _, _, retyped, run, resolved => by
    obtain ⟨condition', atCondition, run⟩ := bind_eq_ok.mp run
    obtain ⟨thenBranch', atThen, run⟩ := bind_eq_ok.mp run
    obtain ⟨elseBranch', atElse, run⟩ := bind_eq_ok.mp run
    cases run
    obtain ⟨conditionKept, place⟩ := condition.resolveTypes_keeps retyped atCondition resolved.1
    obtain ⟨thenKept, thenPlacement, thenIds⟩ :=
      thenBranch.resolveTypes_keeps retyped atThen resolved.2.1
    obtain ⟨elseKept, elsePlacement, elseIds⟩ :=
      elseBranch.resolveTypes_keeps retyped atElse resolved.2.2
    refine ⟨⟨conditionKept, thenKept, elseKept⟩, fun around => ?_, ?_, retyped⟩
    · simp only [Stmt.checkPlacement, place.placement, thenPlacement, elsePlacement]
    · simp only [Stmt.functions, List.map_append, thenIds, elseIds]
  | .whileLoop span condition body, _, _, _, _, _, retyped, run, resolved => by
    obtain ⟨condition', atCondition, run⟩ := bind_eq_ok.mp run
    obtain ⟨body', atBody, run⟩ := bind_eq_ok.mp run
    cases run
    obtain ⟨conditionKept, place⟩ := condition.resolveTypes_keeps retyped atCondition resolved.1
    obtain ⟨bodyKept, placement, ids⟩ := body.resolveTypes_keeps retyped atBody resolved.2
    refine ⟨⟨conditionKept, bodyKept⟩, fun around => ?_, ids, retyped⟩
    simp only [Stmt.checkPlacement, place.placement, placement]
  | .forLoop span init condition step body, _, _, _, _, _, retyped, run, resolved => by
    obtain ⟨⟨init', inner⟩, atInit, run⟩ := bind_eq_ok.mp run
    obtain ⟨condition', atCondition, run⟩ := bind_eq_ok.mp run
    obtain ⟨step', atStep, run⟩ := bind_eq_ok.mp run
    obtain ⟨body', atBody, run⟩ := bind_eq_ok.mp run
    cases run
    obtain ⟨initKept, initPlacement, later⟩ :=
      ForInit.resolveTypes_keeps retyped.push atInit resolved.1
    obtain ⟨conditionKept, place⟩ :=
      condition.resolveTypes_keeps later atCondition resolved.2.1
    obtain ⟨stepKept, stepPlace⟩ := step.resolveTypes_keeps later atStep resolved.2.2.1
    obtain ⟨bodyKept, placement, ids⟩ := body.resolveTypes_keeps later atBody resolved.2.2.2
    refine ⟨⟨initKept, conditionKept, stepKept, bodyKept⟩, fun around => ?_, ids, retyped⟩
    simp only [Stmt.checkPlacement, initPlacement, place.placement, stepPlace.placement, placement]
  | .breakLoop _, _, _, _, _, _, retyped, run, _ | .continueLoop _, _, _, _, _, _, retyped, run, _
  | .returnValue _ none, _, _, _, _, _, retyped, run, _ => by
    cases run
    exact ⟨trivial, fun _ => rfl, rfl, retyped⟩
  | .returnValue span (some value), _, _, _, _, _, retyped, run, resolved => by
    obtain ⟨value', atValue, run⟩ := bind_eq_ok.mp run
    cases run
    obtain ⟨kept, place⟩ := value.resolveTypes_keeps retyped atValue resolved
    refine ⟨kept, fun around => ?_, rfl, retyped⟩
    simp only [Stmt.checkPlacement, place.placement]
termination_by structural s => s

theorem Stmt.resolveTypesAll_keeps :
    ∀ (statements : List Stmt) {scopes scopes' : Scopes} {inRun : Bool} {types : VariableTypes}
      {statements' : List Stmt}, Retyped scopes types scopes' →
      Stmt.resolveTypesAll types statements = .ok statements' →
      Stmt.AllResolved scopes inRun statements →
      Stmt.AllResolved scopes' inRun statements' ∧
        (∀ around, Stmt.checkPlacements around statements' =
          Stmt.checkPlacements around statements) ∧
        (Stmt.allFunctions statements').map (·.id) = (Stmt.allFunctions statements).map (·.id)
  | [], _, _, _, _, _, _, run, _ => by
    cases run
    exact ⟨trivial, fun _ => rfl, rfl⟩
  | s :: rest, scopes, scopes', inRun, types, _, retyped, run, resolved => by
    have headers := Stmt.resolveTypesAll_leading run
    obtain ⟨⟨s', after⟩, atHead, run⟩ := bind_eq_ok.mp run
    obtain ⟨rest', atRest, run⟩ := bind_eq_ok.mp run
    cases run
    obtain ⟨allNew, headResolved, restResolved⟩ := resolved
    have entering : Retyped (scopes.entering inRun (s :: rest)) types
        (scopes'.entering inRun (s' :: rest')) := by
      cases inRun with
      | true => exact retyped
      | false => exact retyped.bindFunctions headers
    obtain ⟨headKept, headPlacement, headIds, later⟩ :=
      s.resolveTypes_keeps entering atHead headResolved
    obtain ⟨restKept, restPlacement, restIds⟩ :=
      Stmt.resolveTypesAll_keeps rest later atRest restResolved
    rw [← Stmt.resolveTypes_isFunction atHead] at restKept
    refine ⟨⟨fun fresh decl' member => ?_, headKept, restKept⟩, fun around => ?_, ?_⟩
    · exact retyped.newFunctions headers (allNew fresh) decl' member
    · simp only [Stmt.checkPlacements, headPlacement, restPlacement]
    · simp only [Stmt.allFunctions, List.map_append, headIds, restIds]
termination_by structural statements => statements

theorem Block.resolveTypes_keeps :
    ∀ (body : Block) {scopes scopes' : Scopes} {types : VariableTypes} {body' : Block},
      Retyped scopes types scopes' → body.resolveTypes types = .ok body' → body.Resolved scopes →
      body'.Resolved scopes' ∧
        (∀ around, body'.checkPlacement around = body.checkPlacement around) ∧
        body'.functions.map (·.id) = body.functions.map (·.id)
  | ⟨span, statements⟩, _, _, _, _, retyped, run, resolved => by
    obtain ⟨statements', atStatements, run⟩ := bind_eq_ok.mp run
    cases run
    exact Stmt.resolveTypesAll_keeps statements retyped.push atStatements resolved
termination_by structural body => body

theorem FunctionDecl.resolveTypes_keeps :
    ∀ (decl : FunctionDecl) {scopes scopes' : Scopes} {types : VariableTypes}
      {decl' : FunctionDecl},
      Retyped scopes types scopes' → decl.resolveTypes types = .ok decl' → decl.Resolved scopes →
      decl'.Resolved scopes' ∧ decl'.checkPlacement = decl.checkPlacement ∧
        decl'.functions.map (·.id) = decl.functions.map (·.id)
  | ⟨id, name, nameSpan, params, resultName, body, span, symbol⟩, _, _, _, _, retyped, run,
      resolved => by
    obtain ⟨body', atBody, run⟩ := bind_eq_ok.mp run
    cases run
    obtain ⟨⟨known, sameId, sameName, sameParams, eachParam, distinct⟩, bodyResolved⟩ := resolved
    obtain ⟨kept, placement, ids⟩ :=
      body.resolveTypes_keeps (retyped.push.bindParams eachParam) atBody bodyResolved
    exact ⟨⟨⟨known, sameId, sameName, sameParams, eachParam, distinct⟩, kept⟩, placement _,
      by simp [FunctionDecl.functions, ids]⟩
termination_by structural decl => decl

end

/-- Finding the types leaves the names resolved, the placement of jumps and assignments as it was,
and the functions the same. -/
theorem Program.resolveTypes_keeps {natives : List NativeSignature} {program typed : Program}
    (run : program.resolveTypes = .ok typed) (resolved : program.Resolved natives) :
    typed.Resolved natives ∧ typed.checkPlacement = program.checkPlacement ∧
      typed.functionIds = program.functionIds := by
  obtain ⟨statements, atStatements, rfl⟩ := Program.resolveTypes_eq_ok.mp run
  obtain ⟨kept, placement, ids⟩ :=
    Stmt.resolveTypesAll_keeps program.statements (.start natives) atStatements resolved
  exact ⟨kept, placement _, ids⟩

end Lu
