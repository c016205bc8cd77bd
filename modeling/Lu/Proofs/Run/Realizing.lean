import Lu.Proofs.Run.Changes
import Lu.Proofs.Scoping.Visited

namespace Lu

/-!
The visible scopes of a running program beside the scopes in which its names were resolved. They lie in
the same order, and a scope of the run has at least what the table that is as far out declares. For
calls, the same is kept of each function that is known, seen from the scope that holds it.
-/

/-- The scope has what is declared under the name. -/
def Scope.Defines (scope : Scope) (name : String) : Declaration → Prop
  | .variable _ => scope.contains name = true
  | .function (.user symbol) => ∃ decl, scope.function? symbol.id = some decl ∧
    decl.name = name ∧ decl.nameSpan = symbol.span
  | .function (.native _) => False

/-- The scope has all that the table declares. -/
def Scope.Covers (scope : Scope) (table : SymbolTable) : Prop :=
  ∀ name declaration, table.values.lookup name = some declaration → scope.Defines name declaration

/-- A table that declares nothing asks for nothing. -/
theorem Scope.covers_empty (scope : Scope) : scope.Covers {} := by
  intro name declaration found
  cases found

/-- No variable and no function of the scope is lost. -/
structure Scope.Extends (scope after : Scope) : Prop where
  names : ∀ name, scope.contains name = true → after.contains name = true
  functions : ∀ id decl, scope.function? id = some decl → after.function? id = some decl

namespace Scope

variable {scope after : Scope}

theorem contains_iff {name : String} :
    scope.contains name = true ↔ name ∈ scope.values.map Prod.fst := by
  rw [contains, get?, Option.isSome_iff_ne_none, ne_eq, List.lookup_eq_none_iff]
  simp

theorem Extends.of_declared (same : after.declared = scope.declared) : scope.Extends after := by
  obtain ⟨names, functions⟩ := Prod.mk.inj same
  refine ⟨fun name inside => ?_, fun id decl known => ?_⟩
  · rw [contains_iff, names]
    exact contains_iff.mp inside
  · rw [function?, functions]
    exact known

theorem Extends.trans {last : Scope} (first : scope.Extends after) (second : after.Extends last) :
    scope.Extends last :=
  ⟨fun name inside => second.names name (first.names name inside),
    fun id decl known => second.functions id decl (first.functions id decl known)⟩

theorem Extends.covers {table : SymbolTable} (extended : scope.Extends after)
    (covers : scope.Covers table) : after.Covers table := by
  intro name declaration found
  have defined := covers name declaration found
  match declaration, defined with
  | .variable _, defined => exact extended.names name defined
  | .function (.user symbol), ⟨decl, known, place⟩ =>
    exact ⟨decl, extended.functions _ _ known, place⟩

/-- A variable is added. -/
theorem extends_variable (scope : Scope) (name : String) (value : Value) :
    scope.Extends { scope with values := (name, value) :: scope.values } := by
  refine ⟨fun other inside => ?_, fun _ _ known => known⟩
  rw [contains_iff] at inside ⊢
  exact List.mem_cons_of_mem _ inside

/-- A function of a new number is added. -/
theorem extends_function {decl : FunctionDecl} (isNew : scope.function? decl.id = none) :
    scope.Extends { scope with functions := (decl.id, decl) :: scope.functions } := by
  refine ⟨fun _ inside => inside, fun id known atId => ?_⟩
  have different : id ≠ decl.id := by
    rintro rfl
    cases isNew.symm.trans atId
  rw [function?, List.lookup_cons, beq_eq_false_iff_ne.mpr different]
  exact atId

end Scope

namespace Context

/-- Each scope goes on to have what it had. -/
def Extends (context after : Context) : Prop :=
  ∀ (index : Nat) (scope : Scope), context.scopes[index]? = some scope →
    ∃ scope', after.scopes[index]? = some scope' ∧ scope.Extends scope'

/-- The scopes of the chain cover the tables one by one, but for the last table, which is that of the
built-in functions. -/
inductive Shows (context : Context) : List SymbolTable → List Nat → Prop
  | builtIn (table : SymbolTable) : Shows context [table] []
  | scope {table : SymbolTable} {tables : List SymbolTable} {index : Nat} {chain : List Nat}
      {scope : Scope} : context.scopes[index]? = some scope → scope.Covers table →
      Shows context tables chain → Shows context (table :: tables) (index :: chain)

/-- What a function was resolved with is visible from the scope that holds it. -/
def Backs (listed : List (Scopes × Expr)) (context : Context) (index : Nat) (decl : FunctionDecl) :
    Prop :=
  ∃ scopes, decl.blank.ListedIn listed scopes ∧
    context.Shows scopes.tables (seen context.calls index)

def AllBacked (listed : List (Scopes × Expr)) (context : Context) : Prop :=
  ∀ (index : Nat) (scope : Scope) id decl, context.scopes[index]? = some scope →
    scope.function? id = some decl → context.Backs listed index decl

/-- What was resolved in the scopes can run in the context. -/
structure Realizes (listed : List (Scopes × Expr)) (scopes : Scopes) (context : Context) : Prop where
  framed : context.Framed
  shows : context.Shows scopes.tables context.visibleScopes
  backed : context.AllBacked listed

variable {listed : List (Scopes × Expr)} {scopes bound : Scopes} {context after : Context}

theorem Extends.refl (context : Context) : context.Extends context :=
  fun _ scope atIndex => ⟨scope, atIndex, .of_declared rfl⟩

theorem Extends.trans {last : Context} (first : context.Extends after) (second : after.Extends last) :
    context.Extends last := by
  intro index scope atIndex
  obtain ⟨between, atBetween, toBetween⟩ := first index scope atIndex
  obtain ⟨scope', atLast, toLast⟩ := second index between atBetween
  exact ⟨scope', atLast, toBetween.trans toLast⟩

theorem Shows.extend {tables : List SymbolTable} {chain : List Nat} (shows : context.Shows tables chain)
    (extended : context.Extends after) : after.Shows tables chain := by
  induction shows with
  | builtIn table => exact .builtIn table
  | scope atIndex covers _ ih =>
    obtain ⟨scope', atIndex', larger⟩ := extended _ _ atIndex
    exact .scope atIndex' (larger.covers covers) ih

/-- Functions stay backed where frames are not closed, and new ones must be backed. -/
theorem AllBacked.extend (backed : context.AllBacked listed) (extended : context.Extends after)
    (same : ∀ index < context.depth, seen after.calls index = seen context.calls index)
    (origin : ∀ (index : Nat) (scope : Scope) id decl, after.scopes[index]? = some scope →
      scope.function? id = some decl →
      (∃ old, context.scopes[index]? = some old ∧ old.function? id = some decl) ∨
        after.Backs listed index decl) : after.AllBacked listed := by
  intro index scope id decl atIndex known
  rcases origin index scope id decl atIndex known with ⟨old, atOld, held⟩ | backs
  · obtain ⟨scopes, inScopes, shows⟩ := backed index old id decl atOld held
    have inside : index < context.depth := (Array.getElem?_eq_some_iff.mp atOld).1
    refine ⟨scopes, inScopes, ?_⟩
    rw [same index inside]
    exact shows.extend extended
  · exact backs

/-- Where nothing is declared, all stays as it was resolved. -/
theorem Realizes.changes (realizes : context.Realizes listed scopes) {visible : List Nat}
    (changes : Changes visible 0 context after) : after.Realizes listed scopes := by
  have extended : context.Extends after := by
    intro index scope atIndex
    have inside : index < context.depth := (Array.getElem?_eq_some_iff.mp atIndex).1
    have declared := changes.declared index inside
    rw [atIndex, Option.map_some] at declared
    obtain ⟨scope', atIndex', same⟩ := Option.map_eq_some_iff.mp declared
    exact ⟨scope', atIndex', .of_declared same⟩
  refine ⟨changes.framed realizes.framed, ?_, realizes.backed.extend extended ?_ ?_⟩
  · rw [changes.visibleScopes]
    exact realizes.shows.extend extended
  · intro index _
    rw [changes.calls]
  · intro index scope id decl atIndex known
    have inside : index < after.depth := (Array.getElem?_eq_some_iff.mp atIndex).1
    rw [changes.depth] at inside
    have declared := changes.declared index inside
    rw [atIndex, Option.map_some] at declared
    obtain ⟨old, atOld, same⟩ := Option.map_eq_some_iff.mp declared.symm
    exact .inl ⟨old, atOld, (Scope.Extends.of_declared same).functions id decl known⟩

section Entering

theorem extends_push (context : Context) (frames : List Frame) :
    context.Extends ⟨context.scopes.push {}, frames⟩ := by
  intro index scope atIndex
  have inside : index < context.scopes.size := (Array.getElem?_eq_some_iff.mp atIndex).1
  have other : index ≠ context.scopes.size := Nat.ne_of_lt inside
  exact ⟨scope, by rwa [Array.getElem?_push, if_neg other], .of_declared rfl⟩

/-- A new scope covers a new table, and holds no function. -/
theorem Realizes.entered (backed : context.AllBacked listed) {frames : List Frame} {outer : List Nat}
    (shows : context.Shows scopes.tables outer)
    (framed : Framed ⟨context.scopes.push {}, frames⟩)
    (chain : visibleScopes ⟨context.scopes.push {}, frames⟩ = context.depth :: outer)
    (same : ∀ index < context.depth, seen frames index = seen context.calls index) :
    Realizes listed scopes.push ⟨context.scopes.push {}, frames⟩ := by
  have extended := context.extends_push frames
  refine ⟨framed, ?_, backed.extend extended same ?_⟩
  · rw [chain]
    have atTop : (context.scopes.push {})[context.depth]? = some {} := by simp [depth]
    exact .scope atTop (Scope.covers_empty _) (shows.extend extended)
  · intro index scope id decl atIndex known
    simp only [Array.getElem?_push] at atIndex
    split at atIndex
    · cases atIndex
      cases known
    · exact .inl ⟨scope, atIndex, known⟩

theorem Realizes.pushScope (realizes : context.Realizes listed scopes) :
    context.pushScope.Realizes listed scopes.push :=
  .entered realizes.backed realizes.shows realizes.framed.pushScope realizes.framed.pushScope_visible
    fun _ _ => rfl

/-- In the frame of a call what the function was resolved with is visible, whatever the caller sees. -/
theorem Realizes.pushFrame (realizes : context.Realizes listed scopes) {home : Nat} {around : Scopes}
    (declared : home < context.depth) (shows : context.Shows around.tables (seen context.calls home)) :
    (context.pushFrame home).Realizes listed around.push :=
  .entered realizes.backed shows (realizes.framed.pushFrame declared) (pushFrame_visible context home)
    fun _ => seen_cons_of_lt

end Entering

section Declaring

theorem Framed.visibleScopes_cons (framed : context.Framed) :
    ∃ outer, context.visibleScopes = (context.depth - 1) :: outer := by
  have base := framed.base
  have below : (innermost context.calls).base ≤ context.depth - 1 := by omega
  have size : context.depth = context.depth - 1 + 1 := by omega
  rw [visibleScopes, size, Frame.visible_succ below]
  exact ⟨_, rfl⟩

/-- What is declared in the innermost table must be defined in the innermost scope. -/
theorem Shows.bind {top : Nat} {outer : List Nat} (shows : context.Shows scopes.tables (top :: outer))
    {name : String} {declaration : Declaration} {scope : Scope}
    (atTop : context.scopes[top]? = some scope) (defined : scope.Defines name declaration) :
    context.Shows (scopes.bind name declaration).tables (top :: outer) := by
  obtain ⟨tables⟩ := scopes
  cases shows with
  | scope known covers rest =>
    cases known.symm.trans atTop
    refine .scope atTop (fun other found atOther => ?_) rest
    rw [List.lookup_cons] at atOther
    split at atOther
    · rename_i same
      cases atOther
      rw [beq_iff_eq.mp same]
      exact defined
    · exact covers other found atOther

theorem modifyInnermost_top {change : Scope → Scope} {scope : Scope}
    (atTop : context.scopes[context.depth - 1]? = some scope) :
    (context.modifyInnermost change).scopes[context.depth - 1]? = some (change scope) := by
  simp only [modifyInnermost, Array.getElem?_modify, depth, if_true] at atTop ⊢
  rw [atTop, Option.map_some]

theorem extends_modifyInnermost (context : Context) {change : Scope → Scope}
    (larger : ∀ scope, context.scopes[context.depth - 1]? = some scope → scope.Extends (change scope)) :
    context.Extends (context.modifyInnermost change) := by
  intro index scope atIndex
  by_cases top : index = context.depth - 1
  · subst top
    exact ⟨change scope, modifyInnermost_top atIndex, larger scope atIndex⟩
  · refine ⟨scope, ?_, .of_declared rfl⟩
    exact (Array.getElem?_modify ..).trans ((if_neg (Ne.symm top)).trans atIndex)

theorem scopes_modifyInnermost {change : Scope → Scope} {index : Nat} {scope : Scope}
    (atIndex : (context.modifyInnermost change).scopes[index]? = some scope) :
    context.scopes[index]? = some scope ∨
      ∃ old, context.scopes[index]? = some old ∧ index = context.depth - 1 ∧ scope = change old := by
  simp only [modifyInnermost, Array.getElem?_modify] at atIndex
  split at atIndex
  · rename_i top
    obtain ⟨old, atOld, rfl⟩ := Option.map_eq_some_iff.mp atIndex
    exact .inr ⟨old, atOld, top.symm, rfl⟩
  · exact .inl atIndex

/-- A variable is declared in the scopes and defined in the context. -/
theorem Realizes.defineVariable (realizes : context.Realizes listed scopes) {binding : VariableSymbol}
    {value : Value} (declared : scopes.declareVariable binding = .ok bound)
    (defined : context.defineVariable binding.name value = .ok after) : after.Realizes listed bound := by
  have changes := realizes.framed.defineVariable_changes defined
  obtain ⟨outer, chain⟩ := realizes.framed.visibleScopes_cons
  obtain ⟨-, rfl⟩ := Scopes.declare_eq_ok.mp declared
  rw [Context.defineVariable_eq] at defined
  split at defined
  · cases defined
  cases defined
  have extended := context.extends_modifyInnermost
    fun scope _ => scope.extends_variable binding.name value
  refine ⟨changes.framed realizes.framed, ?_, realizes.backed.extend extended (fun _ _ => rfl) ?_⟩
  · have shows := realizes.shows.extend extended
    rw [changes.visibleScopes]
    rw [chain] at shows ⊢
    obtain ⟨top, atTop⟩ : ∃ scope, context.scopes[context.depth - 1]? = some scope := by
      have base := realizes.framed.base
      exact ⟨_, Array.getElem?_eq_getElem (Nat.sub_one_lt_of_lt base)⟩
    exact shows.bind (modifyInnermost_top atTop) (Scope.contains_iff.mpr (List.mem_cons_self ..))
  · intro index scope id decl atIndex known
    rcases scopes_modifyInnermost atIndex with atOld | ⟨old, atOld, -, rfl⟩
    · exact .inl ⟨scope, atOld, known⟩
    · exact .inl ⟨old, atOld, known⟩

theorem defineFunction_extends {decl : FunctionDecl}
    (defined : context.defineFunction decl = .ok after) :
    after = context.modifyInnermost (fun scope =>
        { scope with functions := (decl.id, decl) :: scope.functions }) ∧
      context.Extends after := by
  rw [defineFunction_eq] at defined
  split at defined
  · cases defined
  rename_i absent
  cases defined
  refine ⟨rfl, context.extends_modifyInnermost fun scope atTop => scope.extends_function ?_⟩
  rw [Array.back?_eq_getElem?] at absent
  simp only [depth] at atTop
  simpa [atTop] using absent

/-- The functions of a scope are those it had and, in the innermost scope, the new one. -/
theorem defineFunction_origin {decl : FunctionDecl} (defined : context.defineFunction decl = .ok after)
    {index id : Nat} {scope : Scope} {known : FunctionDecl} (atIndex : after.scopes[index]? = some scope)
    (held : scope.function? id = some known) :
    (∃ old, context.scopes[index]? = some old ∧ old.function? id = some known) ∨
      known = decl ∧ index = context.depth - 1 := by
  obtain ⟨rfl, -⟩ := defineFunction_extends defined
  rcases scopes_modifyInnermost atIndex with atOld | ⟨old, atOld, top, rfl⟩
  · exact .inl ⟨scope, atOld, held⟩
  · rw [Scope.function?, List.lookup_cons] at held
    split at held
    · cases held
      exact .inr ⟨rfl, top⟩
    · exact .inl ⟨old, atOld, held⟩

/-- Some functions are defined one after the other in the innermost scope. -/
structure Gains (decls : List FunctionDecl) (context after : Context) : Prop where
  calls : after.calls = context.calls
  depth : after.depth = context.depth
  extended : context.Extends after
  origin : ∀ (index : Nat) (scope : Scope) id decl, after.scopes[index]? = some scope →
    scope.function? id = some decl →
    (∃ old, context.scopes[index]? = some old ∧ old.function? id = some decl) ∨
      decl ∈ decls ∧ index = context.depth - 1

theorem defineFunctions_gains {decls : List FunctionDecl}
    (defined : decls.foldlM Context.defineFunction context = .ok after) :
    Gains decls context after := by
  induction decls generalizing context with
  | nil =>
    cases defined
    exact ⟨rfl, rfl, .refl _, fun _ scope _ _ atIndex held => .inl ⟨scope, atIndex, held⟩⟩
  | cons decl rest ih =>
    rw [List.foldlM_cons] at defined
    obtain ⟨between, first, later⟩ := bind_eq_ok.mp defined
    obtain ⟨calls, depth, extended, origin⟩ := ih later
    obtain ⟨shape, larger⟩ := defineFunction_extends first
    have same : between.depth = context.depth := by
      rw [shape]
      simp [Context.depth, modifyInnermost]
    refine ⟨?_, depth.trans same, larger.trans extended, ?_⟩
    · rw [calls, shape]
      rfl
    · intro index scope id known atIndex held
      rcases origin index scope id known atIndex held with ⟨old, atOld, heldBefore⟩ | ⟨member, top⟩
      · refine (defineFunction_origin first atOld heldBefore).imp_right ?_
        rintro ⟨same, top⟩
        exact ⟨same ▸ List.mem_cons_self .., top⟩
      · exact .inr ⟨List.mem_cons_of_mem _ member, same ▸ top⟩

/-- After a run of functions is declared and defined, the innermost scope covers the innermost table. -/
theorem Shows.functions {decls : List FunctionDecl} {top : Nat} {outer : List Nat}
    (shows : context.Shows scopes.tables (top :: outer)) (atTop : top = context.depth - 1)
    (declared : declareFunctions scopes (decls.map .blank) = .ok bound)
    (defined : decls.foldlM Context.defineFunction context = .ok after) :
    after.Shows bound.tables (top :: outer) := by
  induction decls generalizing scopes context with
  | nil =>
    cases declared
    cases defined
    exact shows
  | cons decl rest ih =>
    rw [List.foldlM_cons] at defined
    obtain ⟨between, first, later⟩ := bind_eq_ok.mp defined
    obtain ⟨⟨header, function⟩, atHeader, declared⟩ := bind_eq_ok.mp declared
    obtain ⟨middle, declares, declared⟩ := bind_eq_ok.mp declared
    obtain ⟨-, rfl⟩ := Scopes.declare_eq_ok.mp declares
    obtain ⟨shape, larger⟩ := defineFunction_extends first
    have sameDepth : between.depth = context.depth := by
      rw [shape]
      simp [Context.depth, modifyInnermost]
    obtain ⟨scope, known⟩ : ∃ scope, context.scopes[context.depth - 1]? = some scope := by
      generalize scopes.tables = tables at shows
      cases shows with
      | scope known => exact ⟨_, atTop ▸ known⟩
    obtain ⟨id, name, span⟩ : function.id = decl.id ∧ function.name = decl.name ∧
        function.span = decl.nameSpan := by
      obtain ⟨id, name, span, -⟩ := FunctionDecl.resolveHeader_symbol atHeader
      cases decl
      exact ⟨id, name, span⟩
    let grown : Scope := { scope with functions := (decl.id, decl) :: scope.functions }
    have atGrown : between.scopes[top]? = some grown := by
      rw [atTop, shape]
      exact modifyInnermost_top known
    have defines : grown.Defines function.name (.function (.user function)) := by
      refine ⟨decl, ?_, name.symm, span.symm⟩
      rw [id, Scope.function?, List.lookup_cons, beq_self_eq_true]
    exact ih ((shows.extend larger).bind atGrown defines) (sameDepth ▸ atTop) declared later

/-- A run of functions is declared in the scopes and defined in the context. -/
theorem Realizes.defineFunctions (realizes : context.Realizes listed scopes)
    {decls : List FunctionDecl} (declared : declareFunctions scopes (decls.map .blank) = .ok bound)
    (each : ∀ decl ∈ decls, decl.blank.ListedIn listed bound)
    (defined : decls.foldlM Context.defineFunction context = .ok after) :
    after.Realizes listed bound := by
  obtain ⟨calls, depth, extended, origin⟩ := defineFunctions_gains defined
  obtain ⟨outer, chain⟩ := realizes.framed.visibleScopes_cons
  have framed : after.Framed := by
    refine ⟨?_, ?_⟩
    · rw [calls]
      exact realizes.framed.nested
    · rw [calls, depth]
      exact realizes.framed.base
  have shows : after.Shows bound.tables after.visibleScopes := by
    have before := realizes.shows
    have same : after.visibleScopes = context.visibleScopes := by
      rw [visibleScopes, visibleScopes, calls, depth]
    rw [same]
    rw [chain] at before ⊢
    exact before.functions rfl declared defined
  refine ⟨framed, shows, realizes.backed.extend extended (fun _ _ => by rw [calls]) ?_⟩
  intro index scope id decl atIndex held
  refine (origin index scope id decl atIndex held).imp_right ?_
  rintro ⟨member, top⟩
  refine ⟨bound, each decl member, ?_⟩
  rw [top, ← depth, framed.seen_innermost]
  exact shows

end Declaring

end Context

end Lu
