import Lu.Check.Analysis
import Lu.Proofs.Scoping.Recorded
import Lu.Proofs.Scoping.Statements
import Lu.Proofs.Tree.Places
import Lu.Proofs.Typing.Recorded

namespace Lu

/-!
The analysis reports errors at places that the program mentions, and leaves these places as they
are.
-/

namespace Check

variable {α β : Type} {place : Span → Prop} {post mid : α → Prop} {goal : β → Prop}
  {check : Check α} {next : α → Check β}

/-- The check gives a value of which the condition holds, or finds an error at one of the places. -/
def Points (place : Span → Prop) (post : α → Prop) : Check α → Prop
  | .ok value => post value
  | .error (.error e) => place e.span
  | .error (.fault _) => True

namespace Points

theorem pure {value : α} (holds : post value) : Points place post (Pure.pure value : Check α) :=
  holds

theorem fail {kind : CheckErrorKind} {span : Span} (there : place span) :
    Points place post (Check.fail kind span) := there

/-- An attempt that only a fault can stop finds no error. -/
theorem lift (attempt : Except Fault α) : Points place (fun _ => True) (Check.lift attempt) := by
  cases attempt <;> trivial

theorem bind (first : Points place mid check)
    (rest : ∀ value, mid value → Points place goal (next value)) :
    Points place goal (check >>= next) := by
  cases run : check with
  | ok value =>
    rw [run] at first
    exact rest value first
  | error failure =>
    rw [run] at first
    cases failure with
    | error e => exact first
    | fault f => trivial

theorem ite {condition : Prop} [Decidable condition] {other : Check α}
    (yes : Points place post check) (no : Points place post other) :
    Points place post (if condition then check else other) := by
  split
  · exact yes
  · exact no

end Points

end Check

section Names

variable {place : Span → Prop} {scopes : Scopes}

namespace Scopes

theorem findVariable_points (name : String) {span : Span} (there : place span) :
    Check.Points place (fun _ => True) (scopes.findVariable name span) := by
  unfold findVariable
  split
  · trivial
  · exact .fail there
  · exact .fail there

theorem findFunction_points (name : String) {span : Span} (there : place span) :
    Check.Points place (fun _ => True) (scopes.findFunction name span) := by
  unfold findFunction
  split
  · trivial
  · exact .fail there
  · exact .fail there

theorem findType_points {typeName : TypeName} (there : place typeName.span) :
    Check.Points place (fun _ => True) (scopes.findType typeName) := by
  unfold findType
  split
  · trivial
  · exact .fail there

theorem declare_points (name : String) (declaration : Declaration) {span : Span}
    (there : place span) :
    Check.Points place (fun _ => True) (scopes.declare name declaration span) := by
  have inTable (table : SymbolTable) :
      Check.Points place (fun _ => True) (table.declare name declaration span) := by
    unfold SymbolTable.declare
    split
    · exact .fail there
    · trivial
  unfold declare
  split
  · exact (inTable _).bind fun _ _ => trivial
  · exact (inTable _).bind fun _ _ => trivial

end Scopes

mutual

theorem Expr.resolveNames_points :
    ∀ e : Expr, e.Within place → Check.Points place (Expr.Within place) (e.resolveNames scopes)
  | .literal .., within => within
  | .variable _ name _, within =>
    (Scopes.findVariable_points name within).bind fun _ _ =>
      (Check.Points.lift _).bind fun _ _ => .pure within
  | .assign _ target value, ⟨here, atTarget, atValue⟩ =>
    (target.resolveNames_points atTarget).bind fun _ atTarget =>
      (value.resolveNames_points atValue).bind fun _ atValue => .pure ⟨here, atTarget, atValue⟩
  | .binary _ _ left right, ⟨here, atLeft, atRight⟩ =>
    (left.resolveNames_points atLeft).bind fun _ atLeft =>
      (right.resolveNames_points atRight).bind fun _ atRight => .pure ⟨here, atLeft, atRight⟩
  | .unary _ _ operand, ⟨here, atOperand⟩ =>
    (operand.resolveNames_points atOperand).bind fun _ atOperand => .pure ⟨here, atOperand⟩
  | .call _ name _ args _, ⟨here, atName, atArgs⟩ =>
    (Expr.resolveAll_points args atArgs).bind fun _ atArgs =>
      (Scopes.findFunction_points name atName).bind fun _ _ =>
        (Check.Points.lift _).bind fun _ _ => .pure ⟨here, atName, atArgs⟩

theorem Expr.resolveAll_points :
    ∀ args : List Expr, Expr.Within.allWithin place args →
      Check.Points place (Expr.Within.allWithin place) (Expr.resolveNames.resolveAll scopes args)
  | [], _ => trivial
  | e :: rest, ⟨atHead, atRest⟩ =>
    (e.resolveNames_points atHead).bind fun _ atHead =>
      (Expr.resolveAll_points rest atRest).bind fun _ atRest => .pure ⟨atHead, atRest⟩

end

theorem VarDecl.resolveNames_points (kind : VariableKind) {decl : VarDecl}
    (within : decl.Within place) :
    Check.Points place (fun result => result.1.Within place) (decl.resolveNames scopes kind) := by
  obtain ⟨atName, atType, atInit⟩ := within
  have declared : Check.Points place (fun _ => True) (decl.resolveTypeName scopes) := by
    unfold resolveTypeName
    split
    · rename_i typeName annotated
      exact (Scopes.findType_points (atType typeName annotated)).bind fun _ _ => .lift _
    · trivial
  refine (decl.init.resolveNames_points atInit).bind fun init atInit => declared.bind fun _ _ => ?_
  refine (Check.Points.lift _).bind fun symbol _ => ?_
  exact (Scopes.declare_points _ _ atName).bind fun _ _ => .pure ⟨atName, atType, atInit⟩

theorem ForInit.resolveNames_points {init : ForInit} (within : init.Within place) :
    Check.Points place (fun result => result.1.Within place) (init.resolveNames scopes) := by
  cases init with
  | letVar decl =>
    exact (VarDecl.resolveNames_points .iterator within).bind fun _ within => .pure within
  | assign e => exact (e.resolveNames_points within).bind fun _ within => .pure within

theorem resolveParams_points {params : List Param} (within : ∀ param ∈ params, param.Within place) :
    Check.Points place
      (fun result => (∀ param ∈ result.1, param.Within place) ∧
        ∀ symbol ∈ result.2, place symbol.span)
      (resolveParams scopes params) := by
  induction params with
  | nil => exact .pure (by simp)
  | cons param rest ih =>
    obtain ⟨here, atRest⟩ := List.forall_mem_cons.mp within
    refine (Scopes.findType_points here.2).bind fun ty _ => ?_
    refine (Check.Points.lift _).bind fun symbol _ => ?_
    refine (ih atRest).bind fun ⟨rest, bindings⟩ ⟨atRest, atBindings⟩ => .pure ?_
    exact ⟨List.forall_mem_cons.mpr ⟨here, atRest⟩, List.forall_mem_cons.mpr ⟨here.1, atBindings⟩⟩

theorem FunctionDecl.resolveHeader_points {decl : FunctionDecl} (within : decl.Within place) :
    Check.Points place
      (fun result => result.1.Within place ∧ place result.2.span ∧
        ∀ symbol ∈ result.2.params, place symbol.span)
      (decl.resolveHeader scopes) := by
  obtain ⟨atName, atParams, atResult, rest⟩ := decl.within_iff.mp within
  have result : Check.Points place (fun _ => True) (decl.resolveResult scopes) := by
    unfold resolveResult
    split
    · rename_i typeName annotated
      exact Scopes.findType_points (atResult typeName annotated)
    · trivial
  refine (resolveParams_points atParams).bind fun ⟨params, bindings⟩ ⟨atParams, atBindings⟩ => ?_
  refine result.bind fun result _ => (Check.Points.lift _).bind fun symbol _ => .pure ?_
  exact ⟨(FunctionDecl.within_iff _).mpr ⟨atName, atParams, atResult, rest⟩, atName, atBindings⟩

theorem declareFunctions_points {decls : List FunctionDecl}
    (within : ∀ decl ∈ decls, decl.Within place) :
    Check.Points place (fun _ => True) (declareFunctions scopes decls) := by
  induction decls generalizing scopes with
  | nil => trivial
  | cons decl rest ih =>
    obtain ⟨here, atRest⟩ := List.forall_mem_cons.mp within
    refine (FunctionDecl.resolveHeader_points here).bind fun ⟨_, function⟩ ⟨_, atName, _⟩ => ?_
    exact (Scopes.declare_points _ _ atName).bind fun _ _ => ih atRest

theorem declareVariables_points {bindings : List VariableSymbol}
    (within : ∀ symbol ∈ bindings, place symbol.span) :
    Check.Points place (fun _ => True) (declareVariables scopes bindings) := by
  induction bindings generalizing scopes with
  | nil => trivial
  | cons binding rest ih =>
    obtain ⟨here, atRest⟩ := List.forall_mem_cons.mp within
    exact (Scopes.declare_points _ _ here).bind fun _ _ => ih atRest

theorem Stmt.AllWithin.leadingFunctions : ∀ {statements : List Stmt},
    Stmt.AllWithin place statements → ∀ decl ∈ leadingFunctions statements, decl.Within place
  | .function _ _ :: _, ⟨⟨_, atDecl⟩, atRest⟩ =>
    List.forall_mem_cons.mpr ⟨atDecl, Stmt.AllWithin.leadingFunctions atRest⟩
  | [], _ => by simp [Lu.leadingFunctions]
  | .expr .. :: _, _ | .letVar .. :: _, _ | .block .. :: _, _ | .ifElse .. :: _, _
  | .whileLoop .. :: _, _ | .forLoop .. :: _, _ | .breakLoop _ :: _, _ | .continueLoop _ :: _, _
  | .returnValue .. :: _, _ => by simp [Lu.leadingFunctions]

/-- Where a list is entered its first functions are declared, then it is resolved. -/
theorem Stmt.AllWithin.enter {statements : List Stmt} (within : Stmt.AllWithin place statements)
    (inside : ∀ {scopes : Scopes},
      Check.Points place (Stmt.AllWithin place) (Stmt.resolveAll scopes true statements)) :
    Check.Points place (Stmt.AllWithin place) (Stmt.resolveAll scopes false statements) := by
  rw [Stmt.resolveAll_enter]
  exact (declareFunctions_points within.leadingFunctions).bind fun _ _ => inside

mutual

theorem Stmt.resolveNames_points : ∀ (s : Stmt) {scopes : Scopes}, s.Within place →
    Check.Points place (fun result => result.1.Within place) (s.resolveNames scopes)
  | .expr _ e, _, ⟨here, within⟩ =>
    (e.resolveNames_points within).bind fun _ within => .pure ⟨here, within⟩
  | .letVar _ decl, _, ⟨here, within⟩ =>
    (decl.resolveNames_points .localVar within).bind fun _ within => .pure ⟨here, within⟩
  | .function _ decl, _, ⟨here, within⟩ =>
    (decl.resolveNames_points within).bind fun _ within => .pure ⟨here, within⟩
  | .block _ body, _, ⟨here, within⟩ =>
    (body.resolveNames_points within).bind fun _ within => .pure ⟨here, within⟩
  | .ifElse _ condition thenBranch none, _, ⟨here, atCondition, atThen⟩ =>
    (condition.resolveNames_points atCondition).bind fun _ atCondition =>
      (thenBranch.resolveNames_points atThen).bind fun _ atThen => .pure ⟨here, atCondition, atThen⟩
  | .ifElse _ condition thenBranch (some elseBranch), _, ⟨here, atCondition, atThen, atElse⟩ => by
    refine (condition.resolveNames_points atCondition).bind fun _ atCondition => ?_
    refine (thenBranch.resolveNames_points atThen).bind fun _ atThen => ?_
    refine (elseBranch.resolveNames_points atElse).bind fun _ atElse => .pure ?_
    exact ⟨here, atCondition, atThen, atElse⟩
  | .whileLoop _ condition body, _, ⟨here, atCondition, atBody⟩ =>
    (condition.resolveNames_points atCondition).bind fun _ atCondition =>
      (body.resolveNames_points atBody).bind fun _ atBody => .pure ⟨here, atCondition, atBody⟩
  | .forLoop _ init condition step body, _, ⟨here, atInit, atCondition, atStep, atBody⟩ => by
    refine (init.resolveNames_points atInit).bind fun (init, inner) atInit => ?_
    refine (condition.resolveNames_points atCondition).bind fun _ atCondition => ?_
    refine (step.resolveNames_points atStep).bind fun _ atStep => ?_
    refine (body.resolveNames_points atBody).bind fun _ atBody => .pure ?_
    exact ⟨here, atInit, atCondition, atStep, atBody⟩
  | .breakLoop _, _, within | .continueLoop _, _, within | .returnValue _ none, _, within => within
  | .returnValue _ (some value), _, ⟨here, within⟩ =>
    (value.resolveNames_points within).bind fun _ within => .pure ⟨here, within⟩

theorem Stmt.resolveAll_points : ∀ (statements : List Stmt) {scopes : Scopes},
    Stmt.AllWithin place statements →
      Check.Points place (Stmt.AllWithin place) (Stmt.resolveAll scopes true statements)
  | [], _, _ => trivial
  | s :: rest, _, ⟨atHead, atRest⟩ => by
    rw [Stmt.resolveAll_cons]
    refine (s.resolveNames_points atHead).bind fun (s', after) atHead => ?_
    have inside : ∀ {scopes : Scopes},
        Check.Points place (Stmt.AllWithin place) (Stmt.resolveAll scopes true rest) :=
      Stmt.resolveAll_points rest atRest
    have later : Check.Points place (Stmt.AllWithin place)
        (Stmt.resolveAll after s.isFunction rest) := by
      cases s.isFunction with
      | true => exact inside
      | false => exact atRest.enter inside
    exact later.bind fun _ atRest => .pure ⟨atHead, atRest⟩

theorem Block.resolveNames_points : ∀ (body : Block) {scopes : Scopes}, body.Within place →
    Check.Points place (Block.Within place) (body.resolveNames scopes)
  | ⟨_, statements⟩, _, ⟨here, within⟩ =>
    (within.enter (Stmt.resolveAll_points statements within)).bind fun _ within =>
      .pure ⟨here, within⟩

theorem FunctionDecl.resolveNames_points : ∀ (decl : FunctionDecl) {scopes : Scopes},
    decl.Within place → Check.Points place (FunctionDecl.Within place) (decl.resolveNames scopes)
  | ⟨_, _, _, _, _, body, _, _⟩, _, within => by
    have ⟨_, _, _, atBody, _⟩ := within
    refine (FunctionDecl.resolveHeader_points within).bind
      fun (header, function) ⟨atHeader, _, atParams⟩ => ?_
    refine (declareVariables_points atParams).bind fun inner _ => ?_
    refine (body.resolveNames_points atBody).bind fun body atBody => .pure ?_
    obtain ⟨atName, atParams, atResult, _, here⟩ := header.within_iff.mp atHeader
    exact (FunctionDecl.within_iff _).mpr ⟨atName, atParams, atResult, atBody, here⟩

end

theorem Program.resolveNames_points (natives : List NativeSignature) {program : Program}
    (within : program.Within place) :
    Check.Points place (Program.Within place) (program.resolveNames natives) := by
  rw [Program.resolveNames_eq]
  exact (within.2.enter (Stmt.resolveAll_points program.statements within.2)).bind
    fun _ atStatements => .pure ⟨within.1, atStatements⟩

end Names

section Placement

variable {place : Span → Prop}

mutual

theorem Expr.checkPlacement_points : ∀ e : Expr, e.Within place →
    Check.Points place (fun _ => True) e.checkPlacement
  | .literal .., _ | .variable .., _ => trivial
  | .assign _ target value, ⟨_, atTarget, atValue⟩ =>
    (target.checkPlacement_points atTarget).bind fun _ _ =>
      (value.checkPlacement_points atValue).bind fun _ _ => .ite trivial (.fail atTarget.span)
  | .binary _ _ left right, ⟨_, atLeft, atRight⟩ =>
    (left.checkPlacement_points atLeft).bind fun _ _ => right.checkPlacement_points atRight
  | .unary _ _ operand, ⟨_, atOperand⟩ => operand.checkPlacement_points atOperand
  | .call _ _ _ args _, ⟨here, _, atArgs⟩ =>
    (Expr.checkPlacements_points args atArgs).bind fun _ _ =>
      (Check.Points.lift _).bind fun _ _ => .ite trivial (.fail here)

theorem Expr.checkPlacements_points : ∀ args : List Expr, Expr.Within.allWithin place args →
    Check.Points place (fun _ => True) (Expr.checkPlacement.checkAll args)
  | [], _ => trivial
  | e :: rest, ⟨atHead, atRest⟩ =>
    (e.checkPlacement_points atHead).bind fun _ _ => Expr.checkPlacements_points rest atRest

end

theorem ForInit.checkPlacement_points {init : ForInit} (within : init.Within place) :
    Check.Points place (fun _ => True) init.checkPlacement := by
  cases init with
  | letVar decl => exact decl.init.checkPlacement_points within.2.2
  | assign e => exact e.checkPlacement_points within

mutual

theorem Stmt.checkPlacement_points : ∀ (s : Stmt) (around : Surroundings), s.Within place →
    Check.Points place (fun _ => True) (s.checkPlacement around)
  | .expr _ e, _, within => e.checkPlacement_points within.2
  | .letVar _ decl, _, within => decl.init.checkPlacement_points within.2.2.2
  | .function _ decl, _, within => decl.checkPlacement_points within.2
  | .block _ body, around, within => body.checkPlacement_points around within.2
  | .ifElse _ condition thenBranch none, around, ⟨_, atCondition, atThen⟩ =>
    (condition.checkPlacement_points atCondition).bind fun _ _ =>
      thenBranch.checkPlacement_points around atThen
  | .ifElse _ condition thenBranch (some elseBranch), around, ⟨_, atCondition, atThen, atElse⟩ =>
    (condition.checkPlacement_points atCondition).bind fun _ _ =>
      (thenBranch.checkPlacement_points around atThen).bind fun _ _ =>
        elseBranch.checkPlacement_points around atElse
  | .whileLoop _ condition body, _, ⟨_, atCondition, atBody⟩ =>
    (condition.checkPlacement_points atCondition).bind fun _ _ =>
      body.checkPlacement_points _ atBody
  | .forLoop _ init condition step body, _, ⟨_, atInit, atCondition, atStep, atBody⟩ => by
    refine (init.checkPlacement_points atInit).bind fun _ _ => ?_
    refine (condition.checkPlacement_points atCondition).bind fun _ _ => ?_
    exact (step.checkPlacement_points atStep).bind fun _ _ => body.checkPlacement_points _ atBody
  | .breakLoop _, _, here | .continueLoop _, _, here | .returnValue _ none, _, here =>
    .ite trivial (.fail here)
  | .returnValue _ (some value), _, ⟨here, atValue⟩ =>
    (value.checkPlacement_points atValue).bind fun _ _ => .ite trivial (.fail here)

theorem Stmt.checkPlacements_points : ∀ (statements : List Stmt) (around : Surroundings),
    Stmt.AllWithin place statements →
      Check.Points place (fun _ => True) (Stmt.checkPlacements around statements)
  | [], _, _ => trivial
  | s :: rest, around, ⟨atHead, atRest⟩ =>
    (s.checkPlacement_points around atHead).bind fun _ _ =>
      Stmt.checkPlacements_points rest around atRest

theorem Block.checkPlacement_points : ∀ (body : Block) (around : Surroundings),
    body.Within place → Check.Points place (fun _ => True) (body.checkPlacement around)
  | ⟨_, statements⟩, around, ⟨_, within⟩ => Stmt.checkPlacements_points statements around within

theorem FunctionDecl.checkPlacement_points : ∀ decl : FunctionDecl, decl.Within place →
    Check.Points place (fun _ => True) decl.checkPlacement
  | ⟨_, _, _, _, _, body, _, _⟩, ⟨_, _, _, atBody, _⟩ => body.checkPlacement_points _ atBody

end

end Placement

section Typing

variable {place : Span → Prop} {types : VariableTypes}

/-- A note stays where it is when it gets its type. -/
theorem ExprNote.setType_points (note : ExprNote) (ty : Ty) (here : place note.span) :
    Check.Points place (fun typed => place typed.span) (note.setType ty) :=
  (Check.Points.lift _).bind fun _ _ => .pure here

mutual

theorem Expr.resolveTypes_points : ∀ e : Expr, e.Within place →
    Check.Points place (Expr.Within place) (e.resolveTypes types)
  | .literal note value, here =>
    (note.setType_points value.type here).bind fun _ here => .pure here
  | .variable note _ _, here =>
    (Check.Points.lift _).bind fun (_, ty) _ =>
      (note.setType_points ty here).bind fun _ here => .pure here
  | .assign note target value, ⟨here, atTarget, atValue⟩ =>
    (target.resolveTypes_points atTarget).bind fun _ atTarget =>
      (value.resolveTypes_points atValue).bind fun _ atValue =>
        (note.setType_points .void here).bind fun _ here => .pure ⟨here, atTarget, atValue⟩
  | .binary note op left right, ⟨here, atLeft, atRight⟩ => by
    refine (left.resolveTypes_points atLeft).bind fun left atLeft => ?_
    refine (right.resolveTypes_points atRight).bind fun right atRight => ?_
    refine (Check.Points.lift _).bind fun leftType _ => ?_
    refine (Check.Points.lift _).bind fun rightType _ => ?_
    split
    · exact (note.setType_points _ here).bind fun _ here => .pure ⟨here, atLeft, atRight⟩
    · exact .fail here
  | .unary note op operand, ⟨here, atOperand⟩ => by
    refine (operand.resolveTypes_points atOperand).bind fun operand atOperand => ?_
    refine (Check.Points.lift _).bind fun operandType _ => ?_
    split
    · exact (note.setType_points _ here).bind fun _ here => .pure ⟨here, atOperand⟩
    · exact .fail here
  | .call note _ _ args _, ⟨here, atName, atArgs⟩ =>
    (Expr.resolveTypesAll_points args atArgs).bind fun _ atArgs =>
      (Check.Points.lift _).bind fun _ _ =>
        (note.setType_points _ here).bind fun _ here => .pure ⟨here, atName, atArgs⟩

theorem Expr.resolveTypesAll_points : ∀ args : List Expr, Expr.Within.allWithin place args →
    Check.Points place (Expr.Within.allWithin place) (Expr.resolveTypes.resolveAll types args)
  | [], _ => trivial
  | e :: rest, ⟨atHead, atRest⟩ =>
    (e.resolveTypes_points atHead).bind fun _ atHead =>
      (Expr.resolveTypesAll_points rest atRest).bind fun _ atRest => .pure ⟨atHead, atRest⟩

end

theorem VarDecl.resolveTypes_points {decl : VarDecl} (within : decl.Within place) :
    Check.Points place (fun result => result.1.Within place) (decl.resolveTypes types) := by
  obtain ⟨atName, atType, atInit⟩ := within
  refine (decl.init.resolveTypes_points atInit).bind fun init atInit => ?_
  refine (Check.Points.lift _).bind fun symbol _ => ?_
  have typeOf : Check.Points place (fun _ => True) (symbol.kind.typeOf init) := by
    cases symbol.kind with
    | iterator => trivial
    | localVar | parameter => exact .lift _
  refine typeOf.bind fun ty _ => (Check.Points.lift _).bind fun _ _ => .pure ?_
  exact ⟨atName, atType, atInit⟩

theorem ForInit.resolveTypes_points {init : ForInit} (within : init.Within place) :
    Check.Points place (fun result => result.1.Within place) (init.resolveTypes types) := by
  cases init with
  | letVar decl => exact (VarDecl.resolveTypes_points within).bind fun _ within => .pure within
  | assign e => exact (e.resolveTypes_points within).bind fun _ within => .pure within

mutual

theorem Stmt.resolveTypes_points : ∀ (s : Stmt) {types : VariableTypes}, s.Within place →
    Check.Points place (fun result => result.1.Within place) (s.resolveTypes types)
  | .expr _ e, _, ⟨here, within⟩ =>
    (e.resolveTypes_points within).bind fun _ within => .pure ⟨here, within⟩
  | .letVar _ decl, _, ⟨here, within⟩ =>
    (decl.resolveTypes_points within).bind fun _ within => .pure ⟨here, within⟩
  | .function _ decl, _, ⟨here, within⟩ =>
    (decl.resolveTypes_points within).bind fun _ within => .pure ⟨here, within⟩
  | .block _ body, _, ⟨here, within⟩ =>
    (body.resolveTypes_points within).bind fun _ within => .pure ⟨here, within⟩
  | .ifElse _ condition thenBranch none, _, ⟨here, atCondition, atThen⟩ =>
    (condition.resolveTypes_points atCondition).bind fun _ atCondition =>
      (thenBranch.resolveTypes_points atThen).bind fun _ atThen => .pure ⟨here, atCondition, atThen⟩
  | .ifElse _ condition thenBranch (some elseBranch), _, ⟨here, atCondition, atThen, atElse⟩ => by
    refine (condition.resolveTypes_points atCondition).bind fun _ atCondition => ?_
    refine (thenBranch.resolveTypes_points atThen).bind fun _ atThen => ?_
    refine (elseBranch.resolveTypes_points atElse).bind fun _ atElse => .pure ?_
    exact ⟨here, atCondition, atThen, atElse⟩
  | .whileLoop _ condition body, _, ⟨here, atCondition, atBody⟩ =>
    (condition.resolveTypes_points atCondition).bind fun _ atCondition =>
      (body.resolveTypes_points atBody).bind fun _ atBody => .pure ⟨here, atCondition, atBody⟩
  | .forLoop _ init condition step body, _, ⟨here, atInit, atCondition, atStep, atBody⟩ => by
    refine (init.resolveTypes_points atInit).bind fun (init, inner) atInit => ?_
    refine (condition.resolveTypes_points atCondition).bind fun _ atCondition => ?_
    refine (step.resolveTypes_points atStep).bind fun _ atStep => ?_
    refine (body.resolveTypes_points atBody).bind fun _ atBody => .pure ?_
    exact ⟨here, atInit, atCondition, atStep, atBody⟩
  | .breakLoop _, _, within | .continueLoop _, _, within | .returnValue _ none, _, within => within
  | .returnValue _ (some value), _, ⟨here, within⟩ =>
    (value.resolveTypes_points within).bind fun _ within => .pure ⟨here, within⟩

theorem Stmt.resolveTypesAll_points : ∀ (statements : List Stmt) {types : VariableTypes},
    Stmt.AllWithin place statements →
      Check.Points place (Stmt.AllWithin place) (Stmt.resolveTypesAll types statements)
  | [], _, _ => trivial
  | s :: rest, _, ⟨atHead, atRest⟩ =>
    (s.resolveTypes_points atHead).bind fun (_, _) atHead =>
      (Stmt.resolveTypesAll_points rest atRest).bind fun _ atRest => .pure ⟨atHead, atRest⟩

theorem Block.resolveTypes_points : ∀ (body : Block) {types : VariableTypes}, body.Within place →
    Check.Points place (Block.Within place) (body.resolveTypes types)
  | ⟨_, statements⟩, _, ⟨here, within⟩ =>
    (Stmt.resolveTypesAll_points statements within).bind fun _ within => .pure ⟨here, within⟩

theorem FunctionDecl.resolveTypes_points : ∀ (decl : FunctionDecl) {types : VariableTypes},
    decl.Within place → Check.Points place (FunctionDecl.Within place) (decl.resolveTypes types)
  | ⟨_, _, _, _, _, body, _, _⟩, _, ⟨atName, atParams, atResult, atBody, here⟩ =>
    (body.resolveTypes_points atBody).bind fun _ atBody =>
      .pure ⟨atName, atParams, atResult, atBody, here⟩

end

end Typing

section Agreement

variable {place : Span → Prop}

theorem Expr.expectType_points (expecting : TypePlace) (expected : Ty) {e : Expr}
    (within : e.Within place) :
    Check.Points place (fun _ => True) (e.expectType expecting expected) :=
  (Check.Points.lift _).bind fun _ _ => .ite trivial (.fail within.span)

theorem Expr.checkUserArguments_points {function : String} : ∀ (args : List Expr) (index : Nat)
    (params : List VariableSymbol), Expr.Within.allWithin place args →
    Check.Points place (fun _ => True) (Expr.checkUserArguments function index args params)
  | [], _, _, _ => trivial
  | _ :: _, _, [], _ => trivial
  | _ :: args, index, _ :: params, ⟨atHead, atRest⟩ =>
    (Check.Points.lift _).bind fun _ _ => (Check.Points.lift _).bind fun _ _ =>
      .ite (Expr.checkUserArguments_points args (index + 1) params atRest) (.fail atHead.span)

theorem Expr.checkNativeArguments_points {function : String} : ∀ (args : List Expr) (index : Nat)
    (params : List NativeParam), Expr.Within.allWithin place args →
    Check.Points place (fun _ => True) (Expr.checkNativeArguments function index args params)
  | [], _, _, _ => trivial
  | _ :: _, _, [], _ => trivial
  | _ :: args, index, _ :: params, ⟨atHead, atRest⟩ =>
    (Check.Points.lift _).bind fun _ _ =>
      .ite (Expr.checkNativeArguments_points args (index + 1) params atRest) (.fail atHead.span)

mutual

theorem Expr.checkTypes_points : ∀ e : Expr, e.Within place →
    Check.Points place (fun _ => True) e.checkTypes
  | .literal .., _ | .variable .., _ => trivial
  | .assign _ target value, ⟨_, atTarget, atValue⟩ =>
    (target.checkTypes_points atTarget).bind fun _ _ =>
      (value.checkTypes_points atValue).bind fun _ _ =>
        (Check.Points.lift _).bind fun _ _ => Expr.expectType_points .assignment _ atValue
  | .binary _ _ left right, ⟨_, atLeft, atRight⟩ =>
    (left.checkTypes_points atLeft).bind fun _ _ => right.checkTypes_points atRight
  | .unary _ _ operand, ⟨_, atOperand⟩ => operand.checkTypes_points atOperand
  | .call _ _ _ args _, ⟨_, _, atArgs⟩ => by
    refine (Expr.checkTypesAll_points args atArgs).bind fun _ _ => ?_
    refine (Check.Points.lift _).bind fun callee _ => ?_
    cases callee with
    | user symbol => exact Expr.checkUserArguments_points args 1 symbol.params atArgs
    | native signature => exact Expr.checkNativeArguments_points args 1 signature.params atArgs

theorem Expr.checkTypesAll_points : ∀ args : List Expr, Expr.Within.allWithin place args →
    Check.Points place (fun _ => True) (Expr.checkTypes.checkAll args)
  | [], _ => trivial
  | e :: rest, ⟨atHead, atRest⟩ =>
    (e.checkTypes_points atHead).bind fun _ _ => Expr.checkTypesAll_points rest atRest

end

theorem VarDecl.checkTypes_points {decl : VarDecl} (within : decl.Within place) :
    Check.Points place (fun _ => True) decl.checkTypes := by
  obtain ⟨-, -, atInit⟩ := within
  have here := atInit.span
  refine (decl.init.checkTypes_points atInit).bind fun _ _ => ?_
  refine (Check.Points.lift _).bind fun found _ => .ite (.fail here) ?_
  split
  · exact .ite trivial (.fail here)
  · exact .ite (.fail here) trivial

theorem ForInit.checkTypes_points {init : ForInit} (within : init.Within place) :
    Check.Points place (fun _ => True) init.checkTypes := by
  cases init with
  | letVar decl =>
    exact (VarDecl.checkTypes_points within).bind fun _ _ =>
      Expr.expectType_points .forStart .int within.2.2
  | assign e =>
    refine (e.checkTypes_points within).bind fun _ _ => ?_
    cases e with
    | assign _ target _ => exact Expr.expectType_points .forStart .int within.2.1
    | literal | «variable» | binary | unary | call => trivial

theorem checkReturned_points (around : Option EnclosingFunction) {span : Span} (here : place span)
    {value : Option Expr} (within : ∀ e ∈ value, e.Within place) :
    Check.Points place (fun _ => True) (checkReturned around span value) := by
  cases around with
  | none => trivial
  | some function =>
    obtain ⟨name, result⟩ := function
    cases value with
    | none =>
      cases result with
      | void => trivial
      | int | float | str | nil => exact .fail here
    | some e =>
      have atValue := within e rfl
      cases result with
      | void => exact (Check.Points.lift _).bind fun _ _ => .ite trivial (.fail atValue.span)
      | int | float | str | nil => exact Expr.expectType_points .returned _ atValue

/-- A missing `return` is reported at the last statement, or at the whole body when there is none. -/
theorem checkFinalReturn_points (function : EnclosingFunction) {body : Block}
    (within : body.Within place) :
    Check.Points place (fun _ => True) (checkFinalReturn function body) := by
  obtain ⟨here, atStatements⟩ := body.within_iff.mp within
  have atLast : place (body.statements.getLast?.elim body.span Stmt.span) := by
    cases last : body.statements.getLast? with
    | none => exact here
    | some s => exact (Stmt.allWithin_iff.mp atStatements s (List.mem_of_getLast? last)).span
  unfold checkFinalReturn
  split
  · trivial
  · trivial
  · exact .fail atLast

mutual

theorem Stmt.checkTypes_points : ∀ (s : Stmt) (around : Option EnclosingFunction),
    s.Within place → Check.Points place (fun _ => True) (s.checkTypes around)
  | .expr _ e, _, within => e.checkTypes_points within.2
  | .letVar _ decl, _, within => decl.checkTypes_points within.2
  | .function _ decl, _, within => decl.checkTypes_points within.2
  | .block _ body, around, within => body.checkTypes_points around within.2
  | .ifElse _ condition thenBranch none, around, ⟨_, atCondition, atThen⟩ =>
    (condition.checkTypes_points atCondition).bind fun _ _ =>
      (Expr.expectType_points .ifCondition .int atCondition).bind fun _ _ =>
        thenBranch.checkTypes_points around atThen
  | .ifElse _ condition thenBranch (some elseBranch), around, ⟨_, atCondition, atThen, atElse⟩ => by
    refine (condition.checkTypes_points atCondition).bind fun _ _ => ?_
    refine (Expr.expectType_points .ifCondition .int atCondition).bind fun _ _ => ?_
    exact (thenBranch.checkTypes_points around atThen).bind fun _ _ =>
      elseBranch.checkTypes_points around atElse
  | .whileLoop _ condition body, around, ⟨_, atCondition, atBody⟩ =>
    (condition.checkTypes_points atCondition).bind fun _ _ =>
      (Expr.expectType_points .whileCondition .int atCondition).bind fun _ _ =>
        body.checkTypes_points around atBody
  | .forLoop _ init condition step body, around, ⟨_, atInit, atCondition, atStep, atBody⟩ => by
    refine (init.checkTypes_points atInit).bind fun _ _ => ?_
    refine (condition.checkTypes_points atCondition).bind fun _ _ => ?_
    refine (Expr.expectType_points .forCondition .int atCondition).bind fun _ _ => ?_
    exact (step.checkTypes_points atStep).bind fun _ _ => body.checkTypes_points around atBody
  | .breakLoop _, _, _ | .continueLoop _, _, _ => trivial
  | .returnValue _ none, around, here => checkReturned_points around here (by simp)
  | .returnValue _ (some value), around, ⟨here, atValue⟩ =>
    (value.checkTypes_points atValue).bind fun _ _ =>
      checkReturned_points around here (by simpa using atValue)

theorem Stmt.checkTypesAll_points : ∀ (statements : List Stmt) (around : Option EnclosingFunction),
    Stmt.AllWithin place statements →
      Check.Points place (fun _ => True) (Stmt.checkTypesAll around statements)
  | [], _, _ => trivial
  | s :: rest, around, ⟨atHead, atRest⟩ =>
    (s.checkTypes_points around atHead).bind fun _ _ => Stmt.checkTypesAll_points rest around atRest

theorem Block.checkTypes_points : ∀ (body : Block) (around : Option EnclosingFunction),
    body.Within place → Check.Points place (fun _ => True) (body.checkTypes around)
  | ⟨_, statements⟩, around, ⟨_, within⟩ => Stmt.checkTypesAll_points statements around within

theorem FunctionDecl.checkTypes_points : ∀ decl : FunctionDecl, decl.Within place →
    Check.Points place (fun _ => True) decl.checkTypes
  | ⟨_, _, _, _, _, body, _, _⟩, ⟨_, _, _, atBody, _⟩ =>
    (Check.Points.lift _).bind fun _ _ =>
      (body.checkTypes_points _ atBody).bind fun _ _ => checkFinalReturn_points _ atBody

end

end Agreement

section Analysis

variable {place : Span → Prop}

theorem AnalysisStep.apply_points (step : AnalysisStep) {program : Program}
    (within : program.Within place) :
    Check.Points place (Program.Within place) (step.apply program) := by
  cases step with
  | names => exact Program.resolveNames_points Native.signatures within
  | placement =>
    exact (Stmt.checkPlacements_points program.statements {} within.2).bind fun _ _ => .pure within
  | types =>
    rw [AnalysisStep.apply, Program.resolveTypes_eq]
    exact (Stmt.resolveTypesAll_points program.statements within.2).bind
      fun _ atStatements => .pure ⟨within.1, atStatements⟩
  | agreement =>
    exact (Stmt.checkTypesAll_points program.statements none within.2).bind fun _ _ => .pure within

/-- Whatever steps are taken, the analysed program mentions the places that it mentioned before, and
an error is at one of them. -/
theorem Program.analyse_points (steps : List AnalysisStep) {program : Program}
    (within : program.Within place) :
    Check.Points place (Program.Within place) (program.analyse steps) := by
  induction steps generalizing program with
  | nil => exact .pure within
  | cons step rest ih =>
    rw [analyse, List.foldlM_cons]
    exact (step.apply_points within).bind fun _ within => ih within

end Analysis

end Lu
