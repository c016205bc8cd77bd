import Lu.Proofs.Scoping.Resolved
import Lu.Proofs.Tree.Functions
import Mathlib.Data.List.Forall2

namespace Lu

/-!
What the resolution of names gives is resolved: the symbols that it stores are those that the names
mean in the scopes, as the resolved tree itself shows them.
-/

mutual

theorem Expr.resolveNames_resolved {scopes : Scopes} :
    ∀ (e : Expr) {resolved : Expr}, e.resolveNames scopes = .ok resolved →
      resolved.Resolved scopes
  | .literal note value, _, run => by
    cases run
    exact .literal
  | .variable note name symbol, _, run => by
    obtain ⟨s, found, run⟩ := bind_eq_ok.mp run
    obtain ⟨filled, stored, run⟩ := bind_eq_ok.mp run
    cases run
    obtain ⟨_, rfl⟩ := Attribute.set_eq_ok.mp (Check.lift_eq_ok.mp stored)
    exact .variable (Scopes.findVariable_eq_ok.mp found) rfl
  | .assign note target value, _, run => by
    obtain ⟨target', atTarget, run⟩ := bind_eq_ok.mp run
    obtain ⟨value', atValue, run⟩ := bind_eq_ok.mp run
    cases run
    exact .assign (target.resolveNames_resolved atTarget) (value.resolveNames_resolved atValue)
  | .binary note op left right, _, run => by
    obtain ⟨left', atLeft, run⟩ := bind_eq_ok.mp run
    obtain ⟨right', atRight, run⟩ := bind_eq_ok.mp run
    cases run
    exact .binary (left.resolveNames_resolved atLeft) (right.resolveNames_resolved atRight)
  | .unary note op operand, _, run => by
    obtain ⟨operand', atOperand, run⟩ := bind_eq_ok.mp run
    cases run
    exact .unary (operand.resolveNames_resolved atOperand)
  | .call note name nameSpan args callee, _, run => by
    obtain ⟨args', atArgs, run⟩ := bind_eq_ok.mp run
    obtain ⟨c, found, run⟩ := bind_eq_ok.mp run
    obtain ⟨filled, stored, run⟩ := bind_eq_ok.mp run
    cases run
    obtain ⟨_, rfl⟩ := Attribute.set_eq_ok.mp (Check.lift_eq_ok.mp stored)
    exact .call (Expr.resolveAll_resolved args atArgs) (Scopes.findFunction_eq_ok.mp found) rfl

theorem Expr.resolveAll_resolved {scopes : Scopes} :
    ∀ (args : List Expr) {resolved : List Expr}, resolveNames.resolveAll scopes args = .ok resolved →
      ∀ arg ∈ resolved, arg.Resolved scopes
  | [], _, run => by
    cases run
    simp
  | e :: rest, _, run => by
    obtain ⟨e', atHead, run⟩ := bind_eq_ok.mp run
    obtain ⟨rest', atRest, run⟩ := bind_eq_ok.mp run
    cases run
    intro arg member
    rcases List.mem_cons.mp member with rfl | member
    · exact e.resolveNames_resolved atHead
    · exact Expr.resolveAll_resolved rest atRest arg member

end

theorem Scopes.isNew_of_bind {scopes : Scopes} {name other : String} {declaration : Declaration}
    (isNew : (scopes.bind name declaration).IsNew other) : other ≠ name ∧ scopes.IsNew other := by
  rcases scopes with ⟨_ | ⟨inner, outer⟩⟩
  · simpa [IsNew, bind] using isNew
  · by_cases same : other = name
    · simp [IsNew, bind, same] at isNew
    · refine ⟨same, ?_⟩
      simpa [IsNew, bind, List.lookup_cons, beq_eq_false_iff_ne.mpr same] using isNew

/-- Types have names of their own, which no variable or function hides. -/
theorem Scopes.findType_bind (scopes : Scopes) (name : String) (declaration : Declaration)
    (typeName : TypeName) :
    (scopes.bind name declaration).findType typeName = scopes.findType typeName := by
  rcases scopes with ⟨_ | ⟨inner, outer⟩⟩ <;> simp [findType, bind, List.findSome?]

theorem VarDecl.resolveNames_resolved {scopes after : Scopes} {kind : VariableKind}
    {decl resolved : VarDecl} (run : decl.resolveNames scopes kind = .ok (resolved, after)) :
    resolved.Resolved scopes kind ∧
      after = scopes.bind resolved.name (.variable resolved.binding) := by
  obtain ⟨init, atInit, run⟩ := bind_eq_ok.mp run
  obtain ⟨declared, -, run⟩ := bind_eq_ok.mp run
  obtain ⟨symbol, stored, run⟩ := bind_eq_ok.mp run
  obtain ⟨bound, declares, run⟩ := bind_eq_ok.mp run
  cases run
  obtain ⟨_, rfl⟩ := Attribute.set_eq_ok.mp (Check.lift_eq_ok.mp stored)
  obtain ⟨isNew, rfl⟩ := Scopes.declare_eq_ok.mp declares
  exact ⟨⟨decl.init.resolveNames_resolved atInit, rfl, rfl, rfl, isNew⟩, rfl⟩

theorem ForInit.resolveNames_resolved {scopes after : Scopes} {init resolved : ForInit}
    (run : init.resolveNames scopes = .ok (resolved, after)) :
    resolved.Resolved scopes ∧ after = scopes.afterInit resolved := by
  cases init with
  | letVar decl =>
    obtain ⟨⟨decl', bound⟩, atDecl, run⟩ := bind_eq_ok.mp run
    cases run
    exact VarDecl.resolveNames_resolved atDecl
  | assign e =>
    obtain ⟨e', atExpr, run⟩ := bind_eq_ok.mp run
    cases run
    exact ⟨e.resolveNames_resolved atExpr, rfl⟩

theorem resolveParams_bindings {scopes : Scopes} {params resolved : List Param}
    {bindings : List VariableSymbol} (run : resolveParams scopes params = .ok (resolved, bindings)) :
    bindings = resolved.map Param.binding ∧ ∀ param ∈ resolved, param.Resolved := by
  induction params generalizing resolved bindings with
  | nil => cases run; simp
  | cons param rest ih =>
    obtain ⟨ty, -, run⟩ := bind_eq_ok.mp run
    obtain ⟨symbol, stored, run⟩ := bind_eq_ok.mp run
    obtain ⟨⟨rest', later⟩, atRest, run⟩ := bind_eq_ok.mp run
    cases run
    obtain ⟨_, rfl⟩ := Attribute.set_eq_ok.mp (Check.lift_eq_ok.mp stored)
    obtain ⟨rfl, eachParam⟩ := ih atRest
    refine ⟨rfl, ?_⟩
    intro other member
    rcases List.mem_cons.mp member with rfl | member
    · exact ⟨rfl, rfl⟩
    · exact eachParam other member

theorem Param.Resolved.carried {param : Param} (resolved : param.Resolved) :
    param.symbol.value? = some param.binding := by
  have typed := resolved.type
  cases stored : param.symbol.value? with
  | none => simp [Param.binding, stored, Attribute.isSet, Attribute.unset] at typed
  | some s => simp [Param.binding, stored]

/-- Parameters that can be declared one after the other have different names. -/
theorem declareVariables_params {scopes bound : Scopes} {params : List Param}
    (eachParam : ∀ param ∈ params, param.Resolved)
    (run : declareVariables scopes (params.map Param.binding) = .ok bound) :
    bound = scopes.bindParams params ∧ (params.map Param.name).Nodup ∧
      ∀ param ∈ params, scopes.IsNew param.name := by
  induction params generalizing scopes with
  | nil => cases run; simp [Scopes.bindParams]
  | cons param rest ih =>
    obtain ⟨between, declares, run⟩ := bind_eq_ok.mp run
    obtain ⟨isNew, rfl⟩ := Scopes.declare_eq_ok.mp declares
    rw [(eachParam param (List.mem_cons_self ..)).name] at isNew run
    obtain ⟨rfl, distinct, later⟩ :=
      ih (fun other member => eachParam other (List.mem_cons_of_mem _ member)) run
    refine ⟨rfl, List.nodup_cons.mpr ⟨?_, distinct⟩, ?_⟩
    · intro member
      obtain ⟨other, inRest, same⟩ := List.mem_map.mp member
      exact (Scopes.isNew_of_bind (later other inRest)).1 same
    · intro other member
      rcases List.mem_cons.mp member with rfl | member
      · exact isNew
      · exact (Scopes.isNew_of_bind (later other member)).2

/-- Of a function that is resolved in the given scopes, the header had the given symbol. -/
def FunctionDecl.Announces (scopes : Scopes) (decl resolved : FunctionDecl) : Prop :=
  ∃ header, decl.resolveHeader scopes = .ok (header, resolved.binding) ∧ resolved.name = decl.name

theorem FunctionDecl.resolveHeader_resolved {scopes : Scopes} {decl header : FunctionDecl}
    {function : FunctionSymbol} (run : decl.resolveHeader scopes = .ok (header, function)) :
    header = { decl with params := header.params, symbol := ⟨some function⟩ } ∧
      function.id = decl.id ∧ function.name = decl.name ∧
      function.params = header.params.map Param.binding ∧
      ∀ param ∈ header.params, param.Resolved := by
  obtain ⟨⟨params, bindings⟩, atParams, run⟩ := bind_eq_ok.mp run
  obtain ⟨result, -, run⟩ := bind_eq_ok.mp run
  obtain ⟨symbol, stored, run⟩ := bind_eq_ok.mp run
  cases run
  obtain ⟨_, rfl⟩ := Attribute.set_eq_ok.mp (Check.lift_eq_ok.mp stored)
  obtain ⟨rfl, eachParam⟩ := resolveParams_bindings atParams
  exact ⟨rfl, rfl, rfl, rfl, eachParam⟩

theorem resolveParams_congr {scopes other : Scopes}
    (same : ∀ typeName, scopes.findType typeName = other.findType typeName) (params : List Param) :
    resolveParams scopes params = resolveParams other params := by
  induction params with
  | nil => rfl
  | cons param rest ih => simp only [resolveParams, same, ih]

/-- A header depends on the scopes by their types only. -/
theorem FunctionDecl.resolveHeader_congr {scopes other : Scopes}
    (same : ∀ typeName, scopes.findType typeName = other.findType typeName) (decl : FunctionDecl) :
    decl.resolveHeader scopes = decl.resolveHeader other := by
  have result : decl.resolveResult scopes = decl.resolveResult other := by
    unfold resolveResult
    split
    · exact same _
    · rfl
  simp only [resolveHeader, resolveParams_congr same, result]

theorem FunctionDecl.Announces.congr {scopes other : Scopes} {decl resolved : FunctionDecl}
    (same : ∀ typeName, scopes.findType typeName = other.findType typeName)
    (announces : decl.Announces scopes resolved) : decl.Announces other resolved := by
  obtain ⟨header, run, name⟩ := announces
  exact ⟨header, decl.resolveHeader_congr same ▸ run, name⟩

/-- Declaring functions binds the symbols of their headers, which the resolved functions carry. -/
theorem declareFunctions_eq_ok {scopes bound : Scopes} {decls resolved : List FunctionDecl}
    (announced : List.Forall₂ (FunctionDecl.Announces scopes) decls resolved)
    (run : declareFunctions scopes decls = .ok bound) :
    bound = scopes.bindFunctions resolved ∧ ∀ decl ∈ resolved, scopes.IsNew decl.name := by
  induction decls generalizing scopes resolved with
  | nil => cases announced; cases run; simp [Scopes.bindFunctions]
  | cons decl rest ih =>
    obtain ⟨decl', rest', announces, later, rfl⟩ := List.forall₂_cons_left_iff.mp announced
    obtain ⟨⟨header, function⟩, atHeader, run⟩ := bind_eq_ok.mp run
    obtain ⟨between, declares, run⟩ := bind_eq_ok.mp run
    obtain ⟨header', sameHeader, sameName⟩ := announces
    obtain ⟨rfl, rfl⟩ := Prod.mk.inj (Except.ok.inj (atHeader.symm.trans sameHeader))
    obtain ⟨isNew, rfl⟩ := Scopes.declare_eq_ok.mp declares
    have named := (FunctionDecl.resolveHeader_resolved atHeader).2.2.1
    rw [named, ← sameName] at isNew run
    have types := fun typeName => (scopes.findType_bind decl'.name
      (.function (.user decl'.binding)) typeName).symm
    obtain ⟨rfl, allNew⟩ := ih (later.imp fun _ _ announces => announces.congr types) run
    refine ⟨rfl, ?_⟩
    intro other member
    rcases List.mem_cons.mp member with rfl | member
    · exact isNew
    · exact (Scopes.isNew_of_bind (allNew other member)).2

theorem declareFunctions_types {scopes bound : Scopes} {decls : List FunctionDecl}
    (run : declareFunctions scopes decls = .ok bound) (typeName : TypeName) :
    bound.findType typeName = scopes.findType typeName := by
  induction decls generalizing scopes with
  | nil => cases run; rfl
  | cons decl rest ih =>
    obtain ⟨⟨header, function⟩, -, run⟩ := bind_eq_ok.mp run
    obtain ⟨between, declares, run⟩ := bind_eq_ok.mp run
    obtain ⟨-, rfl⟩ := Scopes.declare_eq_ok.mp declares
    rw [ih run, Scopes.findType_bind]

/-- A function at the head of a list is resolved in scopes that hold its whole run. -/
theorem Stmt.resolveAll_function {scopes : Scopes} {inRun : Bool} {span : Span}
    {decl : FunctionDecl} {rest resolved : List Stmt}
    (run : Stmt.resolveAll scopes inRun (.function span decl :: rest) = .ok resolved) :
    ∃ inner decl' rest', (inRun = true → inner = scopes) ∧
      (inRun = false →
        declareFunctions scopes (leadingFunctions (.function span decl :: rest)) = .ok inner) ∧
      decl.resolveNames inner = .ok decl' ∧ Stmt.resolveAll inner true rest = .ok rest' ∧
      resolved = .function span decl' :: rest' := by
  cases inRun with
  | true =>
    rw [Stmt.resolveAll, if_pos rfl] at run
    obtain ⟨_, stay, run⟩ := bind_eq_ok.mp run
    cases stay
    obtain ⟨decl', atDecl, run⟩ := bind_eq_ok.mp run
    obtain ⟨rest', atRest, run⟩ := bind_eq_ok.mp run
    cases run
    exact ⟨scopes, decl', rest', fun _ => rfl, nofun, atDecl, atRest, rfl⟩
  | false =>
    rw [Stmt.resolveAll, if_neg (by simp)] at run
    obtain ⟨inner, declares, run⟩ := bind_eq_ok.mp run
    obtain ⟨decl', atDecl, run⟩ := bind_eq_ok.mp run
    obtain ⟨rest', atRest, run⟩ := bind_eq_ok.mp run
    cases run
    exact ⟨inner, decl', rest', nofun, fun _ => declares, atDecl, atRest, rfl⟩

theorem Stmt.resolveAll_plain {scopes : Scopes} {inRun : Bool} {s : Stmt} {rest resolved : List Stmt}
    (plain : s.isFunction = false) (run : Stmt.resolveAll scopes inRun (s :: rest) = .ok resolved) :
    ∃ s' after rest', s.resolveNames scopes = .ok (s', after) ∧
      Stmt.resolveAll after false rest = .ok rest' ∧ resolved = s' :: rest' := by
  have other : ∀ span decl, s = .function span decl → False := by
    rintro span decl rfl
    cases plain
  rw [Stmt.resolveAll.eq_3 _ _ _ _ other] at run
  obtain ⟨⟨s', after⟩, atHead, run⟩ := bind_eq_ok.mp run
  obtain ⟨rest', atRest, run⟩ := bind_eq_ok.mp run
  cases run
  exact ⟨s', after, rest', atHead, atRest, rfl⟩

mutual

theorem Stmt.resolveNames_resolved :
    ∀ (s : Stmt) {scopes after : Scopes} {resolved : Stmt},
      s.resolveNames scopes = .ok (resolved, after) →
      resolved.Resolved scopes ∧ after = scopes.after resolved ∧
        resolved.isFunction = s.isFunction ∧ resolved.functions.map (·.id) = s.functions.map (·.id)
  | .expr span e, _, _, _, run => by
    obtain ⟨e', atExpr, run⟩ := bind_eq_ok.mp run
    cases run
    exact ⟨e.resolveNames_resolved atExpr, rfl, rfl, rfl⟩
  | .letVar span decl, _, _, _, run => by
    obtain ⟨⟨decl', bound⟩, atDecl, run⟩ := bind_eq_ok.mp run
    cases run
    obtain ⟨resolved, rfl⟩ := VarDecl.resolveNames_resolved atDecl
    exact ⟨resolved, rfl, rfl, rfl⟩
  | .function span decl, _, _, _, run => by
    obtain ⟨decl', atDecl, run⟩ := bind_eq_ok.mp run
    cases run
    obtain ⟨resolved, _, ids⟩ := decl.resolveNames_resolved atDecl
    exact ⟨resolved, rfl, rfl, ids⟩
  | .block span body, _, _, _, run => by
    obtain ⟨body', atBody, run⟩ := bind_eq_ok.mp run
    cases run
    obtain ⟨resolved, ids⟩ := body.resolveNames_resolved atBody
    exact ⟨resolved, rfl, rfl, ids⟩
  | .ifElse span condition thenBranch none, _, _, _, run => by
    obtain ⟨condition', atCondition, run⟩ := bind_eq_ok.mp run
    obtain ⟨thenBranch', atThen, run⟩ := bind_eq_ok.mp run
    cases run
    obtain ⟨resolved, ids⟩ := thenBranch.resolveNames_resolved atThen
    exact ⟨⟨condition.resolveNames_resolved atCondition, resolved⟩, rfl, rfl, ids⟩
  | .ifElse span condition thenBranch (some elseBranch), _, _, _, run => by
    obtain ⟨condition', atCondition, run⟩ := bind_eq_ok.mp run
    obtain ⟨thenBranch', atThen, run⟩ := bind_eq_ok.mp run
    obtain ⟨elseBranch', atElse, run⟩ := bind_eq_ok.mp run
    cases run
    obtain ⟨thenResolved, thenIds⟩ := thenBranch.resolveNames_resolved atThen
    obtain ⟨elseResolved, elseIds⟩ := elseBranch.resolveNames_resolved atElse
    refine ⟨⟨condition.resolveNames_resolved atCondition, thenResolved, elseResolved⟩, rfl, rfl, ?_⟩
    simp only [Stmt.functions, List.map_append, thenIds, elseIds]
  | .whileLoop span condition body, _, _, _, run => by
    obtain ⟨condition', atCondition, run⟩ := bind_eq_ok.mp run
    obtain ⟨body', atBody, run⟩ := bind_eq_ok.mp run
    cases run
    obtain ⟨resolved, ids⟩ := body.resolveNames_resolved atBody
    exact ⟨⟨condition.resolveNames_resolved atCondition, resolved⟩, rfl, rfl, ids⟩
  | .forLoop span init condition step body, _, _, _, run => by
    obtain ⟨⟨init', inner⟩, atInit, run⟩ := bind_eq_ok.mp run
    obtain ⟨condition', atCondition, run⟩ := bind_eq_ok.mp run
    obtain ⟨step', atStep, run⟩ := bind_eq_ok.mp run
    obtain ⟨body', atBody, run⟩ := bind_eq_ok.mp run
    cases run
    obtain ⟨initResolved, rfl⟩ := ForInit.resolveNames_resolved atInit
    obtain ⟨resolved, ids⟩ := body.resolveNames_resolved atBody
    exact ⟨⟨initResolved, condition.resolveNames_resolved atCondition,
      step.resolveNames_resolved atStep, resolved⟩, rfl, rfl, ids⟩
  | .breakLoop _, _, _, _, run | .continueLoop _, _, _, _, run
  | .returnValue _ none, _, _, _, run => by
    cases run
    exact ⟨trivial, rfl, rfl, rfl⟩
  | .returnValue span (some value), _, _, _, run => by
    obtain ⟨value', atValue, run⟩ := bind_eq_ok.mp run
    cases run
    exact ⟨value.resolveNames_resolved atValue, rfl, rfl, rfl⟩

theorem Stmt.resolveAll_resolved :
    ∀ (statements : List Stmt) {scopes : Scopes} {inRun : Bool} {resolved : List Stmt},
      Stmt.resolveAll scopes inRun statements = .ok resolved →
      Stmt.AllResolved scopes inRun resolved ∧
        (Stmt.allFunctions resolved).map (·.id) = (Stmt.allFunctions statements).map (·.id) ∧
        (inRun = true → List.Forall₂ (FunctionDecl.Announces scopes)
          (leadingFunctions statements) (leadingFunctions resolved))
  | [], _, _, _, run => by
    cases run
    exact ⟨trivial, rfl, fun _ => .nil⟩
  | s :: rest, scopes, inRun, _, run => by
    cases kind : s.isFunction with
    | true =>
      obtain ⟨span, decl, rfl⟩ : ∃ span decl, s = .function span decl := by
        cases s <;> first | exact ⟨_, _, rfl⟩ | cases kind
      obtain ⟨inner, decl', rest', stay, declares, atDecl, atRest, rfl⟩ :=
        Stmt.resolveAll_function run
      obtain ⟨declResolved, announces, declIds⟩ := decl.resolveNames_resolved atDecl
      obtain ⟨restResolved, restIds, later⟩ := Stmt.resolveAll_resolved rest atRest
      have announced : List.Forall₂ (FunctionDecl.Announces inner)
          (leadingFunctions (.function span decl :: rest))
          (leadingFunctions (.function span decl' :: rest')) := .cons announces (later rfl)
      have ids : (Stmt.allFunctions (.function span decl' :: rest')).map (·.id) =
          (Stmt.allFunctions (.function span decl :: rest)).map (·.id) := by
        simp only [Stmt.allFunctions, Stmt.functions, List.map_append, declIds, restIds]
      cases inRun with
      | true =>
        cases stay rfl
        exact ⟨⟨nofun, declResolved, restResolved⟩, ids, fun _ => announced⟩
      | false =>
        have types := declareFunctions_types (declares rfl)
        obtain ⟨rfl, allNew⟩ := declareFunctions_eq_ok
          (announced.imp fun _ _ announces => announces.congr types) (declares rfl)
        exact ⟨⟨fun _ => allNew, declResolved, restResolved⟩, ids, nofun⟩
    | false =>
      obtain ⟨s', after, rest', atHead, atRest, rfl⟩ := Stmt.resolveAll_plain kind run
      obtain ⟨headResolved, rfl, sameKind, headIds⟩ := s.resolveNames_resolved atHead
      obtain ⟨restResolved, restIds, -⟩ := Stmt.resolveAll_resolved rest atRest
      rw [kind] at sameKind
      have entering := scopes.entering_plain inRun rest' sameKind
      refine ⟨⟨?_, ?_, ?_⟩, ?_, ?_⟩
      · simp [leadingFunctions_eq_nil rest' sameKind]
      · rw [entering]; exact headResolved
      · rw [entering, sameKind]; exact restResolved
      · simp only [Stmt.allFunctions, List.map_append, headIds, restIds]
      · intro _
        rw [leadingFunctions_eq_nil rest kind, leadingFunctions_eq_nil rest' sameKind]
        exact .nil

theorem Block.resolveNames_resolved :
    ∀ (body : Block) {scopes : Scopes} {resolved : Block},
      body.resolveNames scopes = .ok resolved →
      resolved.Resolved scopes ∧ resolved.functions.map (·.id) = body.functions.map (·.id)
  | ⟨span, statements⟩, _, _, run => by
    obtain ⟨statements', atStatements, run⟩ := bind_eq_ok.mp run
    cases run
    obtain ⟨resolved, ids, -⟩ := Stmt.resolveAll_resolved statements atStatements
    exact ⟨resolved, ids⟩

theorem FunctionDecl.resolveNames_resolved :
    ∀ (decl : FunctionDecl) {scopes : Scopes} {resolved : FunctionDecl},
      decl.resolveNames scopes = .ok resolved →
      resolved.Resolved scopes ∧ decl.Announces scopes resolved ∧
        resolved.functions.map (·.id) = decl.functions.map (·.id)
  | ⟨id, name, nameSpan, params, resultName, body, span, symbol⟩, scopes, _, run => by
    obtain ⟨⟨header, function⟩, atHeader, run⟩ := bind_eq_ok.mp run
    obtain ⟨inner, declares, run⟩ := bind_eq_ok.mp run
    obtain ⟨body', atBody, run⟩ := bind_eq_ok.mp run
    cases run
    obtain ⟨shape, sameId, sameName, sameParams, eachParam⟩ :=
      FunctionDecl.resolveHeader_resolved atHeader
    rw [sameParams] at declares
    obtain ⟨rfl, distinct, -⟩ := declareVariables_params eachParam declares
    obtain ⟨resolved, ids⟩ := body.resolveNames_resolved atBody
    generalize header.params = params' at *
    subst shape
    exact ⟨⟨⟨rfl, sameId, sameName, sameParams, eachParam, distinct⟩, resolved⟩,
      ⟨_, atHeader, rfl⟩, by simp [FunctionDecl.functions, ids]⟩

end

end Lu
