import Lu.Proofs.Run.Actions
import Lu.Proofs.Run.Realization

namespace Lu

/-!
A context and the layout behind it: the same scopes and frames, with a value for every declared
variable. In a run without type errors (`strict`) the value has the type of its variable.
-/

theorem Option.Rel.isSome_eq {α β : Type} {r : α → β → Prop} {a : Option α} {b : Option β}
    (related : Option.Rel r a b) : a.isSome = b.isSome := by
  cases related <;> rfl

/-- The value has the type of the variable. -/
def Value.Fits (strict : Prop) (value : Value) (symbol : VariableSymbol) : Prop :=
  strict → ∀ ty, symbol.type.value? = some ty → value.type = ty

structure Scope.Follows (strict : Prop) (layer : Layer) (scope : Scope) : Prop where
  functions : scope.functions = layer.functions
  values : ∀ name,
    Option.Rel (Value.Fits strict) (scope.get? name) (layer.owners.lookup name)

structure Context.Follows (strict : Prop) (layout : Layout) (context : Context) : Prop where
  frames : context.calls = layout.frames
  size : context.scopes.size = layout.layers.size
  scopes : ∀ (index : Nat) (scope : Scope) (layer : Layer), context.scopes[index]? = some scope →
    layout.layers[index]? = some layer → scope.Follows strict layer

/-- Nothing has happened to the scopes further out, nor to the frames. -/
structure Layout.Grew (before after : Layout) : Prop where
  frames : after.frames = before.frames
  size : after.layers.size = before.layers.size
  outer : ∀ index, index ≠ before.top → after.layers[index]? = before.layers[index]?

variable {strict : Prop} {layout after : Layout} {context : Context}

theorem Layout.Grew.refl (layout : Layout) : layout.Grew layout := ⟨rfl, rfl, fun _ _ => rfl⟩

theorem Layout.Grew.top (grew : layout.Grew after) : after.top = layout.top := by
  simp only [Layout.top, grew.size]

theorem Layout.Grew.trans {last : Layout} (first : layout.Grew after) (second : after.Grew last) :
    layout.Grew last := by
  refine ⟨second.frames.trans first.frames, second.size.trans first.size, fun index outer => ?_⟩
  exact (second.outer index (first.top ▸ outer)).trans (first.outer index outer)

theorem Layout.modifyInnermost_grew (layout : Layout) (change : Layer → Layer) :
    layout.Grew (layout.modifyInnermost change) := by
  refine ⟨rfl, Layout.modifyInnermost_size .., fun index outer => ?_⟩
  rw [Layout.layers_modifyInnermost, if_neg outer]

theorem Layout.Grew.framed (grew : layout.Grew after) (framed : layout.Framed) : after.Framed :=
  ⟨grew.size ▸ framed.nonempty, grew.frames ▸ framed.rooted, by
    rw [grew.frames, grew.top]
    exact framed.base⟩

theorem Layout.Grew.visible (grew : layout.Grew after) (index : Nat) :
    after.visible index = layout.visible index := by
  simp only [Layout.visible, grew.frames]

theorem Layout.Grew.chain (grew : layout.Grew after) : after.chain = layout.chain := by
  simp only [Layout.chain, grew.visible, grew.top]

theorem Scope.get?_set (scope : Scope) (name other : String) (value : Value) :
    (scope.set name value).get? other =
      if other = name then (scope.get? name).map fun _ => value else scope.get? other := by
  rcases scope with ⟨values, functions⟩
  simp only [get?, set]
  induction values with
  | nil => simp
  | cons binding rest ih =>
    obtain ⟨key, old⟩ := binding
    have key_eq : (if key == name then (key, value) else (key, old)).1 = key := by split <;> rfl
    rw [List.map_cons, List.lookup_cons, List.lookup_cons, List.lookup_cons, key_eq, ih]
    by_cases same : other = name
    · subst same
      cases hit : other == key with
      | false => simp
      | true => simp [beq_iff_eq.mp hit]
    · cases hit : other == key with
      | false => simp [same]
      | true => simp [← beq_iff_eq.mp hit, same]

namespace Context.Follows

theorem layer_of_scope (follows : context.Follows strict layout) {index : Nat} {scope : Scope}
    (atScope : context.scopes[index]? = some scope) :
    ∃ layer, layout.layers[index]? = some layer ∧ scope.Follows strict layer := by
  obtain ⟨bound, -⟩ := Array.getElem?_eq_some_iff.mp atScope
  have inside : index < layout.layers.size := follows.size ▸ bound
  have atLayer := Array.getElem?_eq_getElem inside
  exact ⟨_, atLayer, follows.scopes index scope _ atScope atLayer⟩

theorem scope_of_layer (follows : context.Follows strict layout) {index : Nat} {layer : Layer}
    (atLayer : layout.layers[index]? = some layer) :
    ∃ scope, context.scopes[index]? = some scope ∧ scope.Follows strict layer := by
  obtain ⟨bound, -⟩ := Array.getElem?_eq_some_iff.mp atLayer
  have inside : index < context.scopes.size := follows.size.symm ▸ bound
  have atScope := Array.getElem?_eq_getElem inside
  exact ⟨_, atScope, follows.scopes index _ layer atScope atLayer⟩

theorem visibleScopes_eq (follows : context.Follows strict layout) (framed : layout.Framed) :
    context.visibleScopes = layout.chain := by
  have size : context.scopes.size = layout.top + 1 := by
    have := framed.nonempty
    rw [follows.size, Layout.top]
    omega
  rw [visibleScopes, follows.frames, depth, size, Layout.chain, Layout.visible,
    frameAt_innermost framed.base]

/-- A scope holds a name just if its layer does. -/
theorem contains_eq (follows : context.Follows strict layout) (index : Nat) (name : String) :
    ((context.scopes[index]?).any (·.contains name)) = (layout.owner? index name).isSome := by
  cases atScope : context.scopes[index]? with
  | none =>
    have atLayer : layout.layers[index]? = none := by
      simpa [← follows.size] using atScope
    simp [Layout.owner?, atLayer]
  | some scope =>
    obtain ⟨layer, atLayer, matched⟩ := follows.layer_of_scope atScope
    simp only [Option.any_some, Scope.contains, Layout.owner?, atLayer, Option.bind_some]
    exact Option.Rel.isSome_eq (matched.values name)

/-- A search that passes only scopes without the name finds the scope behind them. -/
theorem findScope_owner (follows : context.Follows strict layout) (framed : layout.Framed)
    {before after : List Nat} {index : Nat} {name : String} {symbol : VariableSymbol}
    (chain : layout.chain = before ++ index :: after)
    (owned : layout.owner? index name = some symbol)
    (clear : ∀ nearer ∈ before, layout.owner? nearer name = none) :
    context.findScope (·.contains name) = some index := by
  rw [findScope_eq, follows.visibleScopes_eq framed, chain, List.find?_append]
  have passed : before.find? (fun i => (context.scopes[i]?).any (·.contains name)) = none := by
    rw [List.find?_eq_none]
    intro nearer member
    rw [follows.contains_eq, clear nearer member]
    simp
  rw [passed, List.find?_cons_of_pos (by rw [follows.contains_eq, owned]; rfl), Option.none_or]

/-- A search for a name that some visible scope holds finds the first one that does. -/
theorem findScope_some (follows : context.Follows strict layout) (framed : layout.Framed)
    {index : Nat} {name : String} {symbol : VariableSymbol} (visible : index ∈ layout.chain)
    (owned : layout.owner? index name = some symbol) :
    ∃ found holder, context.findScope (·.contains name) = some found ∧
      layout.owner? found name = some holder := by
  rw [findScope_eq, follows.visibleScopes_eq framed]
  cases found : layout.chain.find? fun i => (context.scopes[i]?).any (·.contains name) with
  | none =>
    have none := List.find?_eq_none.mp found index visible
    simp [follows.contains_eq, owned] at none
  | some first =>
    have holds := List.find?_some found
    rw [follows.contains_eq, Option.isSome_iff_exists] at holds
    obtain ⟨holder, owned⟩ := holds
    exact ⟨first, holder, rfl, owned⟩

theorem getValue_eq (follows : context.Follows strict layout) {found : Nat} {name : String}
    {holder : VariableSymbol} (atName : context.findScope (·.contains name) = some found)
    (owned : layout.owner? found name = some holder) :
    ∃ value, context.getValue name = .ok value ∧ value.Fits strict holder := by
  cases atLayer : layout.layers[found]? with
  | none => simp [Layout.owner?, atLayer] at owned
  | some layer =>
    obtain ⟨scope, atScope, matched⟩ := follows.scope_of_layer atLayer
    rw [Layout.owner?, atLayer] at owned
    have same := matched.values name
    rw [show layer.owners.lookup name = some holder from owned] at same
    cases held : scope.get? name with
    | none => rw [held] at same; cases same
    | some value =>
      rw [held] at same
      cases same with
      | some fits => exact ⟨value, by simp [getValue, atName, atScope, held], fits⟩

/-- Giving a variable another value that fits it changes nothing else. -/
theorem assignVariable_eq (follows : context.Follows strict layout) {found : Nat} {name : String}
    {holder : VariableSymbol} {value : Value}
    (atName : context.findScope (·.contains name) = some found)
    (owned : layout.owner? found name = some holder) (fits : value.Fits strict holder) :
    ∃ context', context.assignVariable name value = .ok context' ∧
      context'.Follows strict layout := by
  have run : context.assignVariable name value =
      .ok { context with scopes := context.scopes.modify found (·.set name value) } := by
    simp only [Context.assignVariable_eq, atName]
  refine ⟨_, run, follows.frames, by simpa using follows.size, ?_⟩
  intro index scope layer atScope atLayer
  rw [Array.getElem?_modify] at atScope
  split at atScope
  · rename_i same
    subst same
    obtain ⟨old, atOld, rfl⟩ := Option.map_eq_some_iff.mp atScope
    obtain ⟨functions, values⟩ := follows.scopes _ _ _ atOld atLayer
    refine ⟨functions, fun other => ?_⟩
    have related := values other
    rw [Scope.get?_set]
    split
    · rename_i same
      subst same
      rw [Layout.owner?, atLayer] at owned
      rw [show layer.owners.lookup other = some holder from owned] at related ⊢
      cases held : old.get? other with
      | none => rw [held] at related; cases related
      | some _ => exact .some fits
    · exact related
  · exact follows.scopes _ _ _ atScope atLayer

/-- A change of the innermost scope that goes with one of the innermost layer. -/
theorem modifyInnermost (follows : context.Follows strict layout) {change : Scope → Scope}
    {layerChange : Layer → Layer} (carry : ∀ scope layer, context.scopes[layout.top]? = some scope →
      layout.layers[layout.top]? = some layer → scope.Follows strict layer →
      (change scope).Follows strict (layerChange layer)) :
    (context.modifyInnermost change).Follows strict (layout.modifyInnermost layerChange) := by
  refine ⟨follows.frames, by simpa [Context.modifyInnermost] using follows.size, ?_⟩
  intro index scope layer atScope atLayer
  rw [Layout.layers_modifyInnermost] at atLayer
  simp only [Context.modifyInnermost, Array.getElem?_modify, follows.size] at atScope
  by_cases innermost : index = layout.top
  · subst innermost
    rw [if_pos rfl] at atLayer
    rw [if_pos (by rfl)] at atScope
    obtain ⟨oldLayer, atOldLayer, rfl⟩ := Option.map_eq_some_iff.mp atLayer
    obtain ⟨oldScope, atOldScope, rfl⟩ := Option.map_eq_some_iff.mp atScope
    exact carry _ _ atOldScope atOldLayer (follows.scopes _ _ _ atOldScope atOldLayer)
  · rw [if_neg innermost] at atLayer
    rw [if_neg (fun same => innermost same.symm)] at atScope
    exact follows.scopes _ _ _ atScope atLayer

theorem back_eq (follows : context.Follows strict layout) :
    context.scopes.back? = context.scopes[layout.top]? := by
  rw [Array.back?_eq_getElem?, follows.size, Layout.top]

/-- A variable whose name is new in the innermost scope can be bound there. -/
theorem defineVariable_eq (follows : context.Follows strict layout) {name : String} {value : Value}
    {symbol : VariableSymbol} (isNew : layout.owner? layout.top name = none)
    (fits : value.Fits strict symbol) :
    ∃ context', context.defineVariable name value = .ok context' ∧
      context'.Follows strict (layout.declare name symbol) := by
  have absent : (context.scopes.back?).any (·.contains name) = false := by
    rw [follows.back_eq, follows.contains_eq, isNew]
    rfl
  have run : context.defineVariable name value = .ok (context.modifyInnermost fun scope =>
      { scope with values := (name, value) :: scope.values }) := by
    simp only [Context.defineVariable_eq, absent, Bool.false_eq_true, if_false]
  refine ⟨_, run, follows.modifyInnermost fun scope layer _ _ old => ⟨old.functions, fun other => ?_⟩⟩
  simp only [Scope.get?, List.lookup_cons]
  cases other == name with
  | true => exact .some fits
  | false => exact old.values other

/-- A function whose number is new in the innermost scope can be defined there. -/
theorem defineFunction_eq (follows : context.Follows strict layout) {decl : FunctionDecl}
    (isNew : ∀ layer, layout.layers[layout.top]? = some layer →
      layer.functions.lookup decl.id = none) :
    ∃ context', context.defineFunction decl = .ok context' ∧
      context'.Follows strict (layout.define decl) := by
  have absent :
      (context.scopes.back?).any (fun scope => (scope.function? decl.id).isSome) = false := by
    rw [follows.back_eq]
    cases atScope : context.scopes[layout.top]? with
    | none => rfl
    | some scope =>
      obtain ⟨layer, atLayer, matched⟩ := follows.layer_of_scope atScope
      simp [Scope.function?, matched.functions, isNew layer atLayer]
  have run : context.defineFunction decl = .ok (context.modifyInnermost fun scope =>
      { scope with functions := (decl.id, decl) :: scope.functions }) := by
    simp only [Context.defineFunction_eq, absent, Bool.false_eq_true, if_false]
  refine ⟨_, run, follows.modifyInnermost fun scope layer _ _ old => ⟨?_, old.values⟩⟩
  exact congrArg ((decl.id, decl) :: ·) old.functions

theorem getFunction_eq (follows : context.Follows strict layout) (framed : layout.Framed)
    {id index : Nat} (name : String) {layer : Layer} {decl : FunctionDecl}
    (visible : index ∈ layout.chain) (atLayer : layout.layers[index]? = some layer)
    (defined : layer.functions.lookup id = some decl) :
    ∃ found layer' decl', context.getFunction id name = .ok (decl', found) ∧
      layout.layers[found]? = some layer' ∧ layer'.functions.lookup id = some decl' := by
  have search := context.findScope_eq fun scope => (scope.function? id).isSome
  rw [follows.visibleScopes_eq framed] at search
  cases found : layout.chain.find? fun i =>
      (context.scopes[i]?).any fun scope => (scope.function? id).isSome with
  | none =>
    obtain ⟨scope, atScope, matched⟩ := follows.scope_of_layer atLayer
    have missing := List.find?_eq_none.mp found index visible
    simp [atScope, Scope.function?, matched.functions, defined] at missing
  | some first =>
    have holds := List.find?_some found
    cases atScope : context.scopes[first]? with
    | none => simp [atScope] at holds
    | some scope =>
      obtain ⟨layer', atLayer', matched⟩ := follows.layer_of_scope atScope
      rw [atScope] at holds
      obtain ⟨decl', known⟩ := Option.isSome_iff_exists.mp holds
      refine ⟨first, layer', decl', ?_, atLayer', ?_⟩
      · simp [getFunction, search, found, atScope, known]
      · rw [← matched.functions]
        exact known

theorem empty_follows : Scope.Follows strict {} {} := ⟨rfl, fun _ => .none⟩

theorem initial : Context.initial.Follows strict Layout.initial := by
  refine ⟨rfl, rfl, fun index scope layer atScope atLayer => ?_⟩
  cases index with
  | zero => cases atScope; cases atLayer; exact empty_follows
  | succ index => simp [Context.initial] at atScope

theorem push_scopes (follows : context.Follows strict layout) (index : Nat) (scope : Scope)
    (layer : Layer) (atScope : (context.scopes.push {})[index]? = some scope)
    (atLayer : (layout.layers.push {})[index]? = some layer) : scope.Follows strict layer := by
  rw [Array.getElem?_push] at atScope atLayer
  by_cases last : index = layout.layers.size
  · rw [if_pos (last.trans follows.size.symm)] at atScope
    rw [if_pos last] at atLayer
    cases atScope
    cases atLayer
    exact empty_follows
  · rw [if_neg (by rw [follows.size]; exact last)] at atScope
    rw [if_neg last] at atLayer
    exact follows.scopes _ _ _ atScope atLayer

theorem pushScope (follows : context.Follows strict layout) :
    context.pushScope.Follows strict layout.push :=
  ⟨follows.frames, by simp [Context.pushScope, Layout.push, follows.size], follows.push_scopes⟩

theorem pushFrame (follows : context.Follows strict layout) (staticLink : Nat) :
    (context.pushFrame staticLink).Follows strict (layout.pushFrame staticLink) := by
  refine ⟨?_, by simp [Context.pushFrame, Layout.pushFrame, follows.size], follows.push_scopes⟩
  simp [Context.pushFrame, Layout.pushFrame, depth, follows.size, follows.frames]

/-- What happened in a scope is forgotten when it is left. -/
theorem popScope (follows : context.Follows strict after) (framed : layout.Framed)
    (grew : layout.push.Grew after) : context.popScope.Follows strict layout := by
  have positive := framed.nonempty
  have size : context.scopes.size = layout.layers.size + 1 := by
    rw [follows.size, grew.size]
    simp [Layout.push]
  have shrinks : context.popScope = { context with scopes := context.scopes.pop } :=
    if_pos (by omega)
  rw [shrinks]
  refine ⟨follows.frames.trans grew.frames, by simp [size],
    fun index scope layer atScope atLayer => ?_⟩
  have bound := (Array.getElem?_eq_some_iff.mp atLayer).1
  rw [Array.getElem?_pop, if_pos (by omega)] at atScope
  refine follows.scopes index scope layer atScope ?_
  rw [grew.outer index (by rw [Layout.push_top]; omega)]
  simp only [Layout.push, Array.getElem?_push, if_neg (Nat.ne_of_lt bound)]
  exact atLayer

theorem popFrame (follows : context.Follows strict after) (framed : layout.Framed) {staticLink : Nat}
    (grew : (layout.pushFrame staticLink).Grew after) :
    context.popFrame.Follows strict layout := by
  have positive := framed.nonempty
  have frames := follows.frames.trans grew.frames
  have shrinks : context.popFrame =
      { scopes := context.scopes.shrink (max layout.layers.size 1), calls := layout.frames } := by
    simp only [Context.popFrame, frames, Layout.pushFrame, Frame.base]
  have size : context.scopes.size = layout.layers.size + 1 := by
    rw [follows.size, grew.size]
    simp [Layout.pushFrame]
  rw [shrinks]
  refine ⟨rfl, by simp [size]; omega, fun index scope layer atScope atLayer => ?_⟩
  have bound := (Array.getElem?_eq_some_iff.mp atLayer).1
  rw [Array.shrink_eq_take, Array.take_eq_extract, Array.getElem?_extract, if_pos (by omega),
    Nat.zero_add] at atScope
  refine follows.scopes index scope layer atScope ?_
  rw [grew.outer index (by rw [Layout.pushFrame_top]; omega)]
  simp only [Layout.pushFrame, Array.getElem?_push, if_neg (Nat.ne_of_lt bound)]
  exact atLayer

end Context.Follows

end Lu
