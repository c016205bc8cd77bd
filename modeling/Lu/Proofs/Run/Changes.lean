import Lu.Proofs.Run.Actions
import Lu.Proofs.Run.Nesting

namespace Lu

/-!
What a step may change in a context: the values of variables in the scopes that it sees, and, if it
declares something, the innermost scope.
-/

/-- The names of the variables of a scope, and its functions. -/
def Scope.declared (scope : Scope) : List String × List (Nat × FunctionDecl) :=
  (scope.values.map Prod.fst, scope.functions)

theorem Scope.declared_set (scope : Scope) (name : String) (value : Value) :
    (scope.set name value).declared = scope.declared := by
  have names : (scope.set name value).values.map Prod.fst = scope.values.map Prod.fst := by
    simp only [Scope.set, List.map_map]
    refine List.map_congr_left fun binding _ => ?_
    simp only [Function.comp_apply]
    split <;> rfl
  rw [Scope.declared, names]
  rfl

/-- The number of scopes and the frames stay, the scopes out of sight stay as they are, and all but
the innermost `growing` ones go on to declare what they did. -/
structure Context.Changes (visible : List Nat) (growing : Nat) (before after : Context) : Prop where
  calls : after.calls = before.calls
  depth : after.depth = before.depth
  hidden : ∀ index, index ∉ visible → after.scopes[index]? = before.scopes[index]?
  declared : ∀ index, index + growing < before.depth →
    (after.scopes[index]?).map Scope.declared = (before.scopes[index]?).map Scope.declared

namespace Context.Changes

variable {visible : List Nat} {growing : Nat} {before between after : Context}

theorem refl (visible : List Nat) (growing : Nat) (context : Context) :
    Changes visible growing context context :=
  ⟨rfl, rfl, fun _ _ => rfl, fun _ _ => rfl⟩

theorem trans (first : Changes visible growing before between)
    (second : Changes visible growing between after) : Changes visible growing before after := by
  refine ⟨second.calls.trans first.calls, second.depth.trans first.depth, ?_, ?_⟩
  · intro index unseen
    exact (second.hidden index unseen).trans (first.hidden index unseen)
  · intro index outer
    have outer' : index + growing < between.depth := by rwa [first.depth]
    exact (second.declared index outer').trans (first.declared index outer)

theorem mono {wider : List Nat} {more : Nat} (changes : Changes visible growing before after)
    (sees : visible ⊆ wider) (grows : growing ≤ more) : Changes wider more before after := by
  refine ⟨changes.calls, changes.depth, ?_, ?_⟩
  · intro index unseen
    exact changes.hidden index fun member => unseen (sees member)
  · intro index outer
    exact changes.declared index (by omega)

theorem visibleScopes (changes : Changes visible growing before after) :
    after.visibleScopes = before.visibleScopes := by
  rw [Context.visibleScopes, changes.calls, changes.depth, Context.visibleScopes]

theorem framed (changes : Changes visible growing before after) (framed : before.Framed) :
    after.Framed := by
  refine ⟨?_, ?_⟩
  · rw [changes.calls]
    exact framed.nested
  · rw [changes.calls, changes.depth]
    exact framed.base

/-- A new innermost scope is given up again with all that was declared in it. -/
theorem leave {entered inner : Context} (pushed : entered.scopes = before.scopes.push {})
    (changes : Changes (before.depth :: visible) 1 entered inner) (calls : after.calls = before.calls)
    (depth : after.depth = before.depth)
    (kept : ∀ index < before.depth, after.scopes[index]? = inner.scopes[index]?) :
    Changes visible 0 before after := by
  have entering : ∀ index < before.depth, entered.scopes[index]? = before.scopes[index]? := by
    intro index inside
    have other : index ≠ before.scopes.size := Nat.ne_of_lt inside
    rw [pushed, Array.getElem?_push, if_neg other]
  have deeper : entered.depth = before.depth + 1 := by
    simp [Context.depth, pushed]
  refine ⟨calls, depth, ?_, ?_⟩
  · intro index unseen
    by_cases inside : index < before.depth
    · have other : index ≠ before.depth := Nat.ne_of_lt inside
      have hidden := changes.hidden index (List.not_mem_cons_of_ne_of_not_mem other unseen)
      rw [kept index inside, hidden, entering index inside]
    · have beyond : before.depth ≤ index := by omega
      have beyond' : after.depth ≤ index := by omega
      rw [Array.getElem?_eq_none beyond, Array.getElem?_eq_none beyond']
  · intro index inside
    have declared := changes.declared index (by omega)
    rw [kept index inside, declared, entering index inside]

end Context.Changes

namespace Context

variable {context inner after : Context}

theorem assignVariable_changes {name : String} {value : Value}
    (assigned : context.assignVariable name value = .ok after) :
    Changes context.visibleScopes 0 context after := by
  rw [assignVariable_eq] at assigned
  cases found : context.findScope (·.contains name) with
  | none =>
    rw [found] at assigned
    cases assigned
  | some target =>
    rw [found] at assigned
    cases assigned
    have visible : target ∈ context.visibleScopes := findScope_visible found
    refine ⟨rfl, by simp [depth], ?_, ?_⟩
    · intro index unseen
      have other : target ≠ index := fun same => unseen (same ▸ visible)
      rw [Array.getElem?_modify, if_neg other]
    · intro index _
      rw [Array.getElem?_modify]
      split
      · simp only [Option.map_map, Function.comp_def, Scope.declared_set]
      · rfl

theorem Framed.modifyInnermost_changes (framed : context.Framed) (change : Scope → Scope) :
    Changes context.visibleScopes 1 context (context.modifyInnermost change) := by
  have visible := framed.innermost_visible
  have keeps : ∀ index, context.depth - 1 ≠ index →
      (context.modifyInnermost change).scopes[index]? = context.scopes[index]? := by
    intro index other
    exact (Array.getElem?_modify ..).trans (if_neg other)
  refine ⟨rfl, by simp [depth, modifyInnermost], ?_, ?_⟩
  · intro index unseen
    exact keeps index fun same => unseen (same ▸ visible)
  · intro index outer
    rw [keeps index (by omega)]

theorem Framed.defineVariable_changes (framed : context.Framed) {name : String} {value : Value}
    (defined : context.defineVariable name value = .ok after) :
    Changes context.visibleScopes 1 context after := by
  rw [defineVariable_eq] at defined
  split at defined
  · cases defined
  · cases defined
    exact framed.modifyInnermost_changes _

theorem Framed.defineFunction_changes (framed : context.Framed) {decl : FunctionDecl}
    (defined : context.defineFunction decl = .ok after) :
    Changes context.visibleScopes 1 context after := by
  rw [defineFunction_eq] at defined
  split at defined
  · cases defined
  · cases defined
    exact framed.modifyInnermost_changes _

/-- A scope of its own, however much is declared in it, leaves only changed values behind. -/
theorem Framed.popScope_changes (framed : context.Framed)
    (changes : Changes context.pushScope.visibleScopes 1 context.pushScope inner) :
    Changes context.visibleScopes 0 context inner.popScope := by
  have base := framed.base
  have size : inner.scopes.size = context.scopes.size + 1 :=
    changes.depth.trans (Array.size_push ..)
  have several : 1 < inner.scopes.size := by
    simp only [depth] at base
    omega
  have popped : inner.popScope = { inner with scopes := inner.scopes.pop } := if_pos several
  rw [framed.pushScope_visible] at changes
  rw [popped]
  refine changes.leave rfl changes.calls (by simp [depth, size]) fun index inside => ?_
  have inside : index < inner.scopes.size - 1 := by
    simp only [depth] at inside
    omega
  exact (Array.getElem?_pop ..).trans (if_pos inside)

/-- A call changes values where the declaration of the function can see them, and nothing else. -/
theorem Framed.popFrame_changes (framed : context.Framed) {home : Nat}
    (changes : Changes (context.pushFrame home).visibleScopes 1 (context.pushFrame home) inner) :
    Changes (seen context.calls home) 0 context inner.popFrame := by
  have base := framed.base
  have size : inner.scopes.size = context.scopes.size + 1 :=
    changes.depth.trans (Array.size_push ..)
  have popped : inner.popFrame =
      { scopes := inner.scopes.shrink (max context.depth 1), calls := context.calls } := by
    simp only [Context.popFrame, changes.calls, Context.pushFrame, Frame.base]
  rw [pushFrame_visible] at changes
  rw [popped]
  simp only [depth] at base
  refine changes.leave rfl rfl (by simp [depth, size]; omega) fun index inside => ?_
  have inside : index < context.scopes.size := inside
  rw [Array.shrink_eq_take, Array.take_eq_extract, Array.getElem?_extract,
    if_pos (by simp only [depth]; omega), Nat.zero_add]

end Context

end Lu
