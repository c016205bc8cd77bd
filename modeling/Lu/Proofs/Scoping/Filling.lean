import Lu.Proofs.Check.Ends
import Lu.Proofs.Check.Slots
import Lu.Proofs.Scoping.Mirrored
import Lu.Proofs.Scoping.Recorded
import Lu.Proofs.Typing.Retyping

namespace Lu

/-!
The resolution of names finds each slot that it fills empty, and fills all slots for symbols.
-/

namespace Scopes

/-- What the scopes hold is known in full: functions by the types of their parameters, types by
their names. -/
structure Regular (scopes : Scopes) : Prop where
  announced : ∀ name c, scopes.lookup name = some (.function c) → c.Announced
  types : ∀ typeName ty, scopes.findType typeName = .ok ty → ty = typeName.meaning

variable {scopes : Scopes}

theorem Regular.push (regular : scopes.Regular) : scopes.push.Regular :=
  ⟨fun name c found => regular.announced name c (lookup_push scopes name ▸ found), regular.types⟩

theorem Regular.bind (regular : scopes.Regular) {name : String} {declaration : Declaration}
    (announced : ∀ c, declaration = .function c → c.Announced) :
    (scopes.bind name declaration).Regular := by
  refine ⟨fun other c found => ?_, fun typeName ty found => ?_⟩
  · rw [lookup_bind] at found
    split at found
    · exact announced c (Option.some.inj found)
    · exact regular.announced other c found
  · exact regular.types typeName ty (findType_bind scopes name declaration typeName ▸ found)

theorem ofNatives_regular (natives : List NativeSignature) : (ofNatives natives).Regular := by
  refine ⟨fun name c found => ?_, fun typeName ty found =>
    ((findType_ofNatives natives typeName ty).mp found).2⟩
  obtain ⟨native, same⟩ := ofNatives_lookup found
  cases same
  trivial

theorem findVariable_ends (name : String) (span : Span) :
    Check.Ends (fun _ => True) (scopes.findVariable name span) := by
  unfold findVariable
  split <;> trivial

theorem Regular.findFunction_ends (regular : scopes.Regular) (name : String) (span : Span) :
    Check.Ends Callee.Announced (scopes.findFunction name span) := by
  unfold findFunction
  split
  · exact regular.announced name _ ‹_›
  all_goals trivial

theorem Regular.findType_ends (regular : scopes.Regular) (typeName : TypeName) :
    Check.Ends (· = typeName.meaning) (scopes.findType typeName) := by
  cases found : scopes.findType typeName with
  | ok ty => exact regular.types typeName ty found
  | error failure =>
    unfold findType at found
    split at found
    · cases found
    · cases found
      trivial

theorem declare_ends (name : String) (declaration : Declaration) (span : Span) :
    Check.Ends (· = scopes.bind name declaration) (scopes.declare name declaration span) := by
  rcases scopes with ⟨_ | ⟨inner, outer⟩⟩
  · exact rfl
  · cases known : inner.values.lookup name <;>
      simp [declare, SymbolTable.declare, known, Check.fail, Check.Ends, Functor.map, Except.map,
        bind]

end Scopes

section Expressions

variable {scopes : Scopes}

mutual

theorem Expr.resolveNames_fills (regular : scopes.Regular) :
    ∀ e : Expr, (∀ node ∈ e.nodes, node.Blank) →
      Check.Ends (fun r => AllFilled false r.nodes) (e.resolveNames scopes)
  | .literal note value, blank => .pure (List.forall_mem_singleton.mpr (blank _ (.head _)))
  | .variable note name symbol, blank => by
    obtain ⟨untyped, unset⟩ := blank _ (List.mem_singleton_self _)
    refine .bind (Scopes.findVariable_ends name note.span) fun s _ _ => ?_
    refine .bind (.set unset s) fun filled _ same => .pure (List.forall_mem_singleton.mpr ?_)
    subst same
    exact ⟨untyped, s, rfl, nofun⟩
  | .assign note target value, blank => by
    obtain ⟨untyped, blank⟩ := List.forall_mem_cons.mp blank
    obtain ⟨targetBlank, valueBlank⟩ := List.forall_mem_append.mp blank
    refine .bind (target.resolveNames_fills regular targetBlank) fun target' _ targetFilled => ?_
    refine .bind (value.resolveNames_fills regular valueBlank) fun value' _ valueFilled => .pure ?_
    exact List.forall_mem_cons.mpr
      ⟨untyped, List.forall_mem_append.mpr ⟨targetFilled, valueFilled⟩⟩
  | .binary note op left right, blank => by
    obtain ⟨untyped, blank⟩ := List.forall_mem_cons.mp blank
    obtain ⟨leftBlank, rightBlank⟩ := List.forall_mem_append.mp blank
    refine .bind (left.resolveNames_fills regular leftBlank) fun left' _ leftFilled => ?_
    refine .bind (right.resolveNames_fills regular rightBlank) fun right' _ rightFilled => .pure ?_
    exact List.forall_mem_cons.mpr ⟨untyped, List.forall_mem_append.mpr ⟨leftFilled, rightFilled⟩⟩
  | .unary note op operand, blank => by
    obtain ⟨untyped, operandBlank⟩ := List.forall_mem_cons.mp blank
    refine .bind (operand.resolveNames_fills regular operandBlank) fun operand' _ filled => .pure ?_
    exact List.forall_mem_cons.mpr ⟨untyped, filled⟩
  | .call note name nameSpan args callee, blank => by
    obtain ⟨⟨untyped, unset⟩, argsBlank⟩ := List.forall_mem_cons.mp blank
    refine .bind (Expr.resolveAll_fills regular args argsBlank) fun args' _ argsFilled => ?_
    refine .bind (regular.findFunction_ends name nameSpan) fun c _ announced => ?_
    refine .bind (.set unset c) fun filled _ same => .pure ?_
    subst same
    exact List.forall_mem_cons.mpr ⟨⟨untyped, c, rfl, announced⟩, argsFilled⟩

theorem Expr.resolveAll_fills (regular : scopes.Regular) :
    ∀ args : List Expr, (∀ node ∈ Expr.nodes.allNodes args, node.Blank) →
      Check.Ends (fun r => AllFilled false (Expr.nodes.allNodes r))
        (Expr.resolveNames.resolveAll scopes args)
  | [], _ => List.forall_mem_nil _
  | e :: rest, blank => by
    obtain ⟨headBlank, restBlank⟩ := List.forall_mem_append.mp blank
    refine .bind (e.resolveNames_fills regular headBlank) fun e' _ headFilled => ?_
    refine .bind (Expr.resolveAll_fills regular rest restBlank) fun rest' _ restFilled => .pure ?_
    exact List.forall_mem_append.mpr ⟨headFilled, restFilled⟩

end

end Expressions

section Declarations

variable {scopes : Scopes}

theorem VarDecl.resolveTypeName_fills (regular : scopes.Regular) {decl : VarDecl}
    (unset : decl.declared.isSet = false) :
    Check.Ends (fun declared => declared.value? = decl.typeName.map TypeName.meaning)
      (decl.resolveTypeName scopes) := by
  unfold resolveTypeName
  cases decl.typeName with
  | none => exact .pure (Attribute.isSet_eq_false.mp unset)
  | some typeName =>
    refine .bind (regular.findType_ends typeName) fun ty _ same => ?_
    refine (Check.Ends.set unset ty).mono fun declared _ filled => ?_
    rw [filled, same]
    rfl

theorem VarDecl.resolveNames_fills (regular : scopes.Regular) (kind : VariableKind)
    {decl : VarDecl} (blank : ∀ node ∈ decl.nodes, node.Blank) :
    Check.Ends (fun r => AllFilled false r.1.nodes ∧ r.2.Regular)
      (decl.resolveNames scopes kind) := by
  obtain ⟨⟨undeclared, unset⟩, initBlank⟩ := List.forall_mem_cons.mp blank
  refine .bind (decl.init.resolveNames_fills regular initBlank) fun init _ initFilled => ?_
  refine .bind (VarDecl.resolveTypeName_fills regular undeclared) fun declared _ meaning => ?_
  refine .bind (.set unset _) fun symbol _ filled => ?_
  refine .bind (Scopes.declare_ends _ _ _) fun after _ bound => .pure ?_
  subst filled bound
  exact ⟨List.forall_mem_cons.mpr ⟨⟨meaning, _, rfl, rfl⟩, initFilled⟩, regular.bind nofun⟩

theorem ForInit.resolveNames_fills (regular : scopes.Regular) (init : ForInit)
    (blank : ∀ node ∈ init.nodes, node.Blank) :
    Check.Ends (fun r => AllFilled false r.1.nodes ∧ r.2.Regular) (init.resolveNames scopes) := by
  cases init with
  | letVar decl =>
    exact .bind (VarDecl.resolveNames_fills regular .iterator blank) fun _ _ filled => .pure filled
  | assign e =>
    exact .bind (e.resolveNames_fills regular blank) fun _ _ filled => .pure ⟨filled, regular⟩

theorem resolveParams_fills (regular : scopes.Regular) {params : List Param}
    (unset : ∀ param ∈ params, param.symbol.isSet = false) :
    Check.Ends (fun r =>
      (∀ param ∈ r.1, ∃ s, param.symbol.value? = some s ∧ s.type.isSet = true) ∧
        ∀ binding ∈ r.2, binding.type.isSet = true) (resolveParams scopes params) := by
  induction params with
  | nil => exact .pure ⟨List.forall_mem_nil _, List.forall_mem_nil _⟩
  | cons param rest ih =>
    obtain ⟨first, unset⟩ := List.forall_mem_cons.mp unset
    refine .bind (regular.findType_ends param.typeName) fun ty _ _ => ?_
    refine .bind (.set first _) fun symbol _ filled => ?_
    refine .bind (ih unset) fun ⟨rest', bindings⟩ _ ⟨carried, typed⟩ => .pure ?_
    subst filled
    exact ⟨List.forall_mem_cons.mpr ⟨⟨_, rfl, rfl⟩, carried⟩,
      List.forall_mem_cons.mpr ⟨rfl, typed⟩⟩

theorem FunctionDecl.resolveHeader_fills (regular : scopes.Regular) {decl : FunctionDecl}
    (blank : (Node.function decl).Blank) :
    Check.Ends (fun r => (Node.function r.1).Filled false ∧ (Callee.user r.2).Announced)
      (decl.resolveHeader scopes) := by
  obtain ⟨unset, paramsUnset⟩ := blank
  refine .bind (resolveParams_fills regular paramsUnset) fun ⟨params, bindings⟩ _ filled => ?_
  have result : Check.Ends (fun _ => True) (decl.resolveResult scopes) := by
    unfold resolveResult
    split
    · exact (regular.findType_ends _).mono fun _ _ _ => trivial
    · trivial
  refine .bind result fun ty _ _ => .bind (.set unset _) fun symbol _ same => .pure ?_
  subst same
  exact ⟨⟨rfl, filled.1⟩, filled.2⟩

theorem declareFunctions_fills {decls : List FunctionDecl} {scopes : Scopes}
    (regular : scopes.Regular) (blank : ∀ decl ∈ decls, (Node.function decl).Blank) :
    Check.Ends Scopes.Regular (declareFunctions scopes decls) := by
  induction decls generalizing scopes with
  | nil => exact .pure regular
  | cons decl rest ih =>
    obtain ⟨first, blank⟩ := List.forall_mem_cons.mp blank
    refine .bind (FunctionDecl.resolveHeader_fills regular first) fun ⟨_, f⟩ _ filled => ?_
    refine .bind (Scopes.declare_ends _ _ _) fun bound _ same => ?_
    subst same
    exact ih (regular.bind fun c same => Declaration.function.inj same ▸ filled.2) blank

theorem declareVariables_fills {bindings : List VariableSymbol} {scopes : Scopes}
    (regular : scopes.Regular) : Check.Ends Scopes.Regular (declareVariables scopes bindings) := by
  induction bindings generalizing scopes with
  | nil => exact .pure regular
  | cons binding rest ih =>
    refine .bind (Scopes.declare_ends _ _ _) fun bound _ same => ?_
    subst same
    exact ih (regular.bind nofun)

theorem leadingFunctions_nodes {statements : List Stmt} :
    ∀ decl ∈ leadingFunctions statements, Node.function decl ∈ Stmt.allNodes statements := by
  induction statements with
  | nil => exact List.forall_mem_nil _
  | cons s rest ih =>
    cases s with
    | function span first =>
      refine List.forall_mem_cons.mpr ⟨?_, fun decl member => ?_⟩
      · cases first
        exact .head _
      · exact List.mem_append_right _ (ih decl member)
    | expr | letVar | block | ifElse | whileLoop | forLoop | breakLoop | continueLoop
    | returnValue => exact List.forall_mem_nil _

theorem leadingFunctions_fills (regular : scopes.Regular) {statements : List Stmt}
    (blank : ∀ node ∈ Stmt.allNodes statements, node.Blank) :
    Check.Ends Scopes.Regular (declareFunctions scopes (leadingFunctions statements)) :=
  declareFunctions_fills regular fun decl member => blank _ (leadingFunctions_nodes decl member)

end Declarations

mutual

theorem Stmt.resolveNames_fills :
    ∀ (s : Stmt) {scopes : Scopes}, scopes.Regular → (∀ node ∈ s.nodes, node.Blank) →
      Check.Ends (fun r => AllFilled false r.1.nodes ∧ r.2.Regular) (s.resolveNames scopes)
  | .expr span e, _, regular, blank =>
    .bind (e.resolveNames_fills regular blank) fun _ _ filled => .pure ⟨filled, regular⟩
  | .letVar span decl, _, regular, blank =>
    .bind (VarDecl.resolveNames_fills regular .localVar blank) fun _ _ filled => .pure filled
  | .function span decl, _, regular, blank =>
    .bind (decl.resolveNames_fills regular blank) fun _ _ filled => .pure ⟨filled, regular⟩
  | .block span body, _, regular, blank =>
    .bind (body.resolveNames_fills regular blank) fun _ _ filled => .pure ⟨filled, regular⟩
  | .ifElse span condition thenBranch none, _, regular, blank => by
    obtain ⟨conditionBlank, thenBlank⟩ := List.forall_mem_append.mp blank
    refine .bind (condition.resolveNames_fills regular conditionBlank) fun _ _ first => ?_
    refine .bind (thenBranch.resolveNames_fills regular thenBlank) fun _ _ second => .pure ?_
    exact ⟨List.forall_mem_append.mpr ⟨first, second⟩, regular⟩
  | .ifElse span condition thenBranch (some elseBranch), _, regular, blank => by
    obtain ⟨conditionBlank, blank⟩ := List.forall_mem_append.mp blank
    obtain ⟨thenBlank, elseBlank⟩ := List.forall_mem_append.mp blank
    refine .bind (condition.resolveNames_fills regular conditionBlank) fun _ _ first => ?_
    refine .bind (thenBranch.resolveNames_fills regular thenBlank) fun _ _ second => ?_
    refine .bind (elseBranch.resolveNames_fills regular elseBlank) fun _ _ third => .pure ?_
    exact ⟨List.forall_mem_append.mpr ⟨first, List.forall_mem_append.mpr ⟨second, third⟩⟩, regular⟩
  | .whileLoop span condition body, _, regular, blank => by
    obtain ⟨conditionBlank, bodyBlank⟩ := List.forall_mem_append.mp blank
    refine .bind (condition.resolveNames_fills regular conditionBlank) fun _ _ first => ?_
    refine .bind (body.resolveNames_fills regular bodyBlank) fun _ _ second => .pure ?_
    exact ⟨List.forall_mem_append.mpr ⟨first, second⟩, regular⟩
  | .forLoop span init condition step body, _, regular, blank => by
    obtain ⟨initBlank, blank⟩ := List.forall_mem_append.mp blank
    obtain ⟨conditionBlank, blank⟩ := List.forall_mem_append.mp blank
    obtain ⟨stepBlank, bodyBlank⟩ := List.forall_mem_append.mp blank
    refine .bind (ForInit.resolveNames_fills regular.push init initBlank)
      fun ⟨_, inner⟩ _ ⟨first, within⟩ => ?_
    refine .bind (condition.resolveNames_fills within conditionBlank) fun _ _ second => ?_
    refine .bind (step.resolveNames_fills within stepBlank) fun _ _ third => ?_
    refine .bind (body.resolveNames_fills within bodyBlank) fun _ _ fourth => .pure ⟨?_, regular⟩
    exact List.forall_mem_append.mpr ⟨first, List.forall_mem_append.mpr ⟨second,
      List.forall_mem_append.mpr ⟨third, fourth⟩⟩⟩
  | .breakLoop _, _, regular, _ | .continueLoop _, _, regular, _
  | .returnValue _ none, _, regular, _ => .pure ⟨List.forall_mem_nil _, regular⟩
  | .returnValue span (some value), _, regular, blank =>
    .bind (value.resolveNames_fills regular blank) fun _ _ filled => .pure ⟨filled, regular⟩

theorem Stmt.resolveAll_fills :
    ∀ (statements : List Stmt) {scopes : Scopes} (inRun : Bool), scopes.Regular →
      (∀ node ∈ Stmt.allNodes statements, node.Blank) →
      Check.Ends (fun r => AllFilled false (Stmt.allNodes r))
        (Stmt.resolveAll scopes inRun statements)
  | [], _, _, _, _ => .pure (List.forall_mem_nil _)
  | s :: rest, scopes, inRun, regular, blank => by
    obtain ⟨headBlank, restBlank⟩ := List.forall_mem_append.mp blank
    cases kind : s.isFunction with
    | true =>
      obtain ⟨span, decl, rfl⟩ : ∃ span decl, s = .function span decl := by
        cases s <;> first | exact ⟨_, _, rfl⟩ | cases kind
      have declared (inner : Scopes) (within : inner.Regular) :
          Check.Ends (fun r => AllFilled false (Stmt.allNodes r)) (do
            let decl ← decl.resolveNames inner
            let rest ← Stmt.resolveAll inner true rest
            return .function span decl :: rest) := by
        refine .bind (decl.resolveNames_fills within headBlank) fun _ _ first => ?_
        refine .bind (Stmt.resolveAll_fills rest true within restBlank) fun _ _ second => .pure ?_
        exact List.forall_mem_append.mpr ⟨first, second⟩
      rw [Stmt.resolveAll]
      exact .ite (fun _ => declared scopes regular) fun _ =>
        .bind (leadingFunctions_fills regular blank) fun inner _ within => declared inner within
    | false =>
      have other : ∀ span decl, s = .function span decl → False := by
        rintro span decl rfl
        cases kind
      rw [Stmt.resolveAll.eq_3 _ _ _ _ other]
      refine .bind (s.resolveNames_fills regular headBlank) fun ⟨_, after⟩ _ ⟨first, within⟩ => ?_
      refine .bind (Stmt.resolveAll_fills rest false within restBlank) fun _ _ second => .pure ?_
      exact List.forall_mem_append.mpr ⟨first, second⟩

theorem Block.resolveNames_fills :
    ∀ (body : Block) {scopes : Scopes}, scopes.Regular → (∀ node ∈ body.nodes, node.Blank) →
      Check.Ends (fun r => AllFilled false r.nodes) (body.resolveNames scopes)
  | ⟨_, statements⟩, _, regular, blank =>
    .bind (Stmt.resolveAll_fills statements false regular.push blank) fun _ _ filled => .pure filled

theorem FunctionDecl.resolveNames_fills :
    ∀ (decl : FunctionDecl) {scopes : Scopes}, scopes.Regular →
      (∀ node ∈ decl.nodes, node.Blank) →
      Check.Ends (fun r => AllFilled false r.nodes) (decl.resolveNames scopes)
  | ⟨id, name, nameSpan, params, resultName, body, span, symbol⟩, _, regular, blank => by
    obtain ⟨headerBlank, bodyBlank⟩ := List.forall_mem_cons.mp blank
    refine .bind (FunctionDecl.resolveHeader_fills regular headerBlank)
      fun ⟨header, f⟩ _ ⟨headerFilled, _⟩ => ?_
    refine .bind (declareVariables_fills regular.push) fun inner _ within => ?_
    refine .bind (body.resolveNames_fills within bodyBlank) fun body' _ bodyFilled => .pure ?_
    exact List.forall_mem_cons.mpr ⟨headerFilled, bodyFilled⟩

end

/-- On a blank program the resolution of names fills all slots for symbols, if it finds no error. -/
theorem Program.resolveNames_fills (natives : List NativeSignature) {program : Program}
    (blank : program.blank = program) :
    Check.Ends (fun resolved => AllFilled false resolved.nodes)
      (program.resolveNames natives) := by
  have unset := program.blank_nodes
  rw [blank] at unset
  rw [Program.resolveNames_eq]
  exact .bind (Stmt.resolveAll_fills _ false (Scopes.ofNatives_regular natives) unset)
    fun _ _ filled => .pure filled

end Lu
