import Lu.Proofs.Run.Following

namespace Lu

/-!
Contexts that hold the same variables in the same scopes. The functions in them are known by the
same numbers and stand in a given relation.
-/

variable {related : FunctionDecl → FunctionDecl → Prop}

/-- Related options are both empty, or hold related values. -/
theorem Option.Rel.eq_or {α β : Type} {r : α → β → Prop} {a : Option α} {b : Option β}
    (rel : Option.Rel r a b) :
    a = none ∧ b = none ∨ ∃ x y, a = some x ∧ b = some y ∧ r x y := by
  cases rel with
  | none => exact .inl ⟨rfl, rfl⟩
  | some holds => exact .inr ⟨_, _, rfl, rfl, holds⟩

structure Scope.Alike (related : FunctionDecl → FunctionDecl → Prop) (a b : Scope) : Prop where
  values : b.values = a.values
  functions : ∀ id, Option.Rel related (a.function? id) (b.function? id)

structure Context.Alike (related : FunctionDecl → FunctionDecl → Prop) (a b : Context) : Prop where
  calls : b.calls = a.calls
  scopes : ∀ index : Nat, Option.Rel (Scope.Alike related) (a.scopes[index]?) (b.scopes[index]?)

namespace Scope.Alike

variable {a b : Scope}

theorem empty : Scope.Alike related {} {} := ⟨rfl, fun _ => .none⟩

theorem get?_eq (alike : Scope.Alike related a b) (name : String) : b.get? name = a.get? name := by
  simp only [get?, alike.values]

theorem contains_eq (alike : Scope.Alike related a b) (name : String) :
    b.contains name = a.contains name := by
  simp only [contains, alike.get?_eq]

theorem set (alike : Scope.Alike related a b) (name : String) (value : Value) :
    Scope.Alike related (a.set name value) (b.set name value) :=
  ⟨by simp only [Scope.set, alike.values], alike.functions⟩

theorem bind (alike : Scope.Alike related a b) (name : String) (value : Value) :
    Scope.Alike related { a with values := (name, value) :: a.values }
      { b with values := (name, value) :: b.values } :=
  ⟨congrArg ((name, value) :: ·) alike.values, alike.functions⟩

theorem define (alike : Scope.Alike related a b) {f f' : FunctionDecl} (same : f'.id = f.id)
    (like : related f f') :
    Scope.Alike related { a with functions := (f.id, f) :: a.functions }
      { b with functions := (f'.id, f') :: b.functions } := by
  refine ⟨alike.values, fun id => ?_⟩
  simp only [function?, List.lookup_cons, same]
  cases id == f.id with
  | true => exact .some like
  | false => exact alike.functions id

/-- The order in which two functions were defined cannot be told. -/
theorem define_swapped (alike : Scope.Alike related a b) {f f' g g' : FunctionDecl}
    (sameF : f'.id = f.id) (sameG : g'.id = g.id) (other : g.id ≠ f.id) (likeF : related f f')
    (likeG : related g g') :
    Scope.Alike related { a with functions := (g.id, g) :: (f.id, f) :: a.functions }
      { b with functions := (f'.id, f') :: (g'.id, g') :: b.functions } := by
  refine ⟨alike.values, fun id => ?_⟩
  simp only [function?, List.lookup_cons, sameF, sameG]
  by_cases atF : id = f.id
  · have notG : (id == g.id) = false := by simpa [atF] using Ne.symm other
    simp only [notG, beq_iff_eq.mpr atF]
    exact .some likeF
  · have notF : (id == f.id) = false := by simpa using atF
    simp only [notF]
    cases id == g.id with
    | true => exact .some likeG
    | false => exact alike.functions id

end Scope.Alike

namespace Context

theorem defineFunction_eq_ok {context after : Context} {f : FunctionDecl} :
    context.defineFunction f = .ok after ↔
      (context.scopes.back?).any (fun scope => (scope.function? f.id).isSome) = false ∧
        after = context.modifyInnermost fun scope =>
          { scope with functions := (f.id, f) :: scope.functions } := by
  rw [defineFunction_eq]
  split
  · rename_i known
    simp [known]
  · rename_i new
    simp [new, eq_comm]

theorem back?_modifyInnermost (context : Context) (change : Scope → Scope) :
    (context.modifyInnermost change).scopes.back? = context.scopes.back?.map change := by
  simp only [modifyInnermost, Array.back?_eq_getElem?, Array.size_modify, Array.getElem?_modify,
    if_true]

theorem modifyInnermost_twice (context : Context) (first second : Scope → Scope) :
    (context.modifyInnermost first).modifyInnermost second =
      context.modifyInnermost fun scope => second (first scope) := by
  simp only [modifyInnermost, Array.size_modify]
  congr 1
  ext index
  · simp
  · simp [Array.getElem_modify]
    grind

end Context

namespace Context.Alike

variable {a b : Context}

theorem size (alike : a.Alike related b) : b.scopes.size = a.scopes.size := by
  have bound : ∀ index : Nat, a.scopes.size ≤ index ↔ b.scopes.size ≤ index := by
    intro index
    rw [← Array.getElem?_eq_none_iff, ← Array.getElem?_eq_none_iff]
    obtain ⟨atA, atB⟩ | ⟨s, t, atA, atB, -⟩ := Option.Rel.eq_or (alike.scopes index) <;> simp [atA, atB]
  have below := (bound _).mp (Nat.le_refl _)
  have above := (bound _).mpr (Nat.le_refl _)
  omega

theorem depth (alike : a.Alike related b) : b.depth = a.depth := alike.size

/-- A test that cannot tell the scopes apart finds the same one. -/
theorem findScope_eq (alike : a.Alike related b) {test : Scope → Bool}
    (same : ∀ s t, Scope.Alike related s t → test t = test s) :
    b.findScope test = a.findScope test := by
  have each : ∀ index : Nat, (b.scopes[index]?).any test = (a.scopes[index]?).any test := by
    intro index
    obtain ⟨atA, atB⟩ | ⟨s, t, atA, atB, scopes⟩ := Option.Rel.eq_or (alike.scopes index)
    · rw [atA, atB]
    · rw [atA, atB]
      exact same s t scopes
  rw [Context.findScope_eq, Context.findScope_eq, visibleScopes, visibleScopes, alike.calls,
    alike.depth]
  simp only [each]

theorem findVariable_eq (alike : a.Alike related b) (name : String) :
    b.findScope (·.contains name) = a.findScope (·.contains name) :=
  alike.findScope_eq fun _ _ scopes => scopes.contains_eq name

theorem getValue_eq (alike : a.Alike related b) (name : String) : b.getValue name = a.getValue name := by
  have value : ∀ index : Nat, (b.scopes[index]?).bind (·.get? name) =
      (a.scopes[index]?).bind (·.get? name) := by
    intro index
    obtain ⟨atA, atB⟩ | ⟨s, t, atA, atB, scopes⟩ := Option.Rel.eq_or (alike.scopes index)
    · rw [atA, atB]
    · rw [atA, atB]
      exact scopes.get?_eq name
  simp only [getValue, alike.findVariable_eq, value]

/-- The same function is found in both, in the same scope, or in neither. -/
theorem getFunction (alike : a.Alike related b) (id : Nat) (name : String) :
    (∃ f f' scope, a.getFunction id name = .ok (f, scope) ∧ b.getFunction id name = .ok (f', scope) ∧
        related f f') ∨
      a.getFunction id name = .error (.undefinedFunction name) ∧
        b.getFunction id name = .error (.undefinedFunction name) := by
  have found : (b.findScope fun scope => (scope.function? id).isSome) =
      a.findScope fun scope => (scope.function? id).isSome :=
    alike.findScope_eq fun _ _ scopes => (Option.Rel.isSome_eq (scopes.functions id)).symm
  unfold Context.getFunction
  rw [found]
  cases a.findScope fun scope => (scope.function? id).isSome with
  | none => exact .inr ⟨rfl, rfl⟩
  | some index =>
    obtain ⟨atA, atB⟩ | ⟨s, t, atA, atB, scopes⟩ := Option.Rel.eq_or (alike.scopes index)
    · exact .inr (by simp [atA, atB])
    · obtain ⟨inA, inB⟩ | ⟨f, f', inA, inB, like⟩ := Option.Rel.eq_or (scopes.functions id)
      · exact .inr (by simp [atA, atB, inA, inB])
      · exact .inl ⟨f, f', index, by simp [atA, inA], by simp [atB, inB], like⟩

theorem modify (alike : a.Alike related b) (index : Nat) {change change' : Scope → Scope}
    (carry : ∀ s t, a.scopes[index]? = some s → Scope.Alike related s t →
      Scope.Alike related (change s) (change' t)) :
    Context.Alike related { a with scopes := a.scopes.modify index change }
      { b with scopes := b.scopes.modify index change' } := by
  refine ⟨alike.calls, fun other => ?_⟩
  simp only [Array.getElem?_modify]
  split
  · rename_i same
    subst same
    obtain ⟨atA, atB⟩ | ⟨s, t, atA, atB, scopes⟩ := Option.Rel.eq_or (alike.scopes index)
    · rw [atA, atB]
      exact .none
    · rw [atA, atB]
      exact .some (carry s t atA scopes)
  · exact alike.scopes other

theorem assignVariable (alike : a.Alike related b) (name : String) (value : Value) :
    (∃ a' b', a.assignVariable name value = .ok a' ∧ b.assignVariable name value = .ok b' ∧
        a'.Alike related b') ∨
      a.assignVariable name value = .error (.undefinedVariable name) ∧
        b.assignVariable name value = .error (.undefinedVariable name) := by
  rw [Context.assignVariable_eq, Context.assignVariable_eq, alike.findVariable_eq]
  cases a.findScope (·.contains name) with
  | none => exact .inr ⟨rfl, rfl⟩
  | some index =>
    exact .inl ⟨_, _, rfl, rfl, alike.modify index fun _ _ _ scopes => scopes.set name value⟩

theorem modifyInnermost (alike : a.Alike related b) {change change' : Scope → Scope}
    (carry : ∀ s t, a.scopes.back? = some s → Scope.Alike related s t →
      Scope.Alike related (change s) (change' t)) :
    (a.modifyInnermost change).Alike related (b.modifyInnermost change') := by
  rw [Array.back?_eq_getElem?] at carry
  have changed := alike.modify (a.scopes.size - 1) carry
  unfold Context.modifyInnermost
  rw [alike.size]
  exact changed

theorem any_back_eq (alike : a.Alike related b) {test : Scope → Bool}
    (same : ∀ s t, Scope.Alike related s t → test t = test s) :
    (b.scopes.back?).any test = (a.scopes.back?).any test := by
  rw [Array.back?_eq_getElem?, Array.back?_eq_getElem?, alike.size]
  obtain ⟨atA, atB⟩ | ⟨s, t, atA, atB, scopes⟩ := Option.Rel.eq_or (alike.scopes (a.scopes.size - 1))
  · rw [atA, atB]
  · rw [atA, atB]
    exact same s t scopes

theorem defineVariable (alike : a.Alike related b) (name : String) (value : Value) :
    (∃ a' b', a.defineVariable name value = .ok a' ∧ b.defineVariable name value = .ok b' ∧
        a'.Alike related b') ∨
      a.defineVariable name value = .error (.duplicateDefinition name) ∧
        b.defineVariable name value = .error (.duplicateDefinition name) := by
  rw [Context.defineVariable_eq, Context.defineVariable_eq,
    alike.any_back_eq fun _ _ scopes => scopes.contains_eq name]
  split
  · exact .inr ⟨rfl, rfl⟩
  · exact .inl ⟨_, _, rfl, rfl, alike.modifyInnermost fun _ _ _ scopes => scopes.bind name value⟩

theorem hasFunction_eq (alike : a.Alike related b) (id : Nat) :
    (b.scopes.back?).any (fun scope => (scope.function? id).isSome) =
      (a.scopes.back?).any (fun scope => (scope.function? id).isSome) :=
  alike.any_back_eq fun _ _ scopes => (Option.Rel.isSome_eq (scopes.functions id)).symm

theorem defineFunction (alike : a.Alike related b) {f f' : FunctionDecl} (sameId : f'.id = f.id)
    (sameName : f'.name = f.name) (like : related f f') :
    (∃ a' b', a.defineFunction f = .ok a' ∧ b.defineFunction f' = .ok b' ∧ a'.Alike related b') ∨
      a.defineFunction f = .error (.duplicateDefinition f.name) ∧
        b.defineFunction f' = .error (.duplicateDefinition f.name) := by
  rw [Context.defineFunction_eq, Context.defineFunction_eq, sameId, sameName, alike.hasFunction_eq]
  split
  · exact .inr ⟨rfl, rfl⟩
  · have defined := alike.modifyInnermost fun _ _ _ scopes => scopes.define sameId like
    rw [sameId] at defined
    exact .inl ⟨_, _, rfl, rfl, defined⟩

/-- Two functions of the innermost scope can be defined in either order. -/
theorem defineFunctions_swapped (alike : a.Alike related b) {f f' g g' : FunctionDecl}
    (sameF : f'.id = f.id) (sameG : g'.id = g.id) (likeF : related f f') (likeG : related g g')
    {between after : Context} (first : a.defineFunction f = .ok between)
    (second : between.defineFunction g = .ok after) :
    ∃ between' after', b.defineFunction g' = .ok between' ∧
      between'.defineFunction f' = .ok after' ∧ after.Alike related after' := by
  obtain ⟨newF, rfl⟩ := defineFunction_eq_ok.mp first
  obtain ⟨newG, rfl⟩ := defineFunction_eq_ok.mp second
  rw [back?_modifyInnermost, Option.any_map] at newG
  have apart : ∀ s, a.scopes.back? = some s →
      (g.id == f.id) = false ∧ s.function? f.id = none ∧ s.function? g.id = none := by
    intro s innermost
    rw [innermost] at newF newG
    have absent : s.function? f.id = none := by simpa using newF
    have absentToo : List.lookup g.id ((f.id, f) :: s.functions) = none :=
      Option.isSome_eq_false_iff.mp newG |> Option.isNone_iff_eq_none.mp
    rw [List.lookup_cons] at absentToo
    cases same : g.id == f.id with
    | true => simp [same] at absentToo
    | false => exact ⟨rfl, absent, by rwa [same] at absentToo⟩
  have definedG := alike.modifyInnermost fun _ _ _ scopes => scopes.define sameG likeG
  refine ⟨_, _, defineFunction_eq_ok.mpr ⟨?_, rfl⟩, defineFunction_eq_ok.mpr ⟨?_, rfl⟩, ?_⟩
  · rw [sameG, alike.hasFunction_eq]
    cases innermost : a.scopes.back? with
    | none => rfl
    | some s => simp [(apart s innermost).2.2]
  · rw [sameF, definedG.hasFunction_eq, back?_modifyInnermost, Option.any_map]
    cases innermost : a.scopes.back? with
    | none => rfl
    | some s =>
      obtain ⟨other, absent, -⟩ := apart s innermost
      have other' : (f.id == g.id) = false := by
        rw [beq_eq_false_iff_ne] at other ⊢
        exact other.symm
      simpa [Scope.function?, List.lookup_cons, other'] using absent
  · rw [modifyInnermost_twice, modifyInnermost_twice]
    exact alike.modifyInnermost fun s _ innermost scopes =>
      scopes.define_swapped sameF sameG (by simpa using (apart s innermost).1) likeF likeG

theorem initial : Context.initial.Alike related Context.initial := by
  refine ⟨rfl, fun index => ?_⟩
  cases index with
  | zero => exact .some .empty
  | succ index => exact .none

theorem push (alike : a.Alike related b) (index : Nat) :
    Option.Rel (Scope.Alike related) ((a.scopes.push {})[index]?) ((b.scopes.push {})[index]?) := by
  rw [Array.getElem?_push, Array.getElem?_push, alike.size]
  split
  · exact .some .empty
  · exact alike.scopes index

theorem pushScope (alike : a.Alike related b) : a.pushScope.Alike related b.pushScope :=
  ⟨alike.calls, alike.push⟩

theorem pushFrame (alike : a.Alike related b) (staticLink : Nat) :
    (a.pushFrame staticLink).Alike related (b.pushFrame staticLink) := by
  refine ⟨?_, alike.push⟩
  simp only [Context.pushFrame, alike.depth, alike.calls]

theorem popScope (alike : a.Alike related b) : a.popScope.Alike related b.popScope := by
  unfold Context.popScope
  rw [alike.size]
  split
  · refine ⟨alike.calls, fun index => ?_⟩
    rw [Array.getElem?_pop, Array.getElem?_pop, alike.size]
    split
    · exact alike.scopes index
    · exact .none
  · exact alike

theorem popFrame (alike : a.Alike related b) : a.popFrame.Alike related b.popFrame := by
  unfold Context.popFrame
  rw [alike.calls]
  split
  · refine ⟨rfl, fun index => ?_⟩
    simp only [Array.shrink_eq_take, Array.take_eq_extract, Array.getElem?_extract, alike.size]
    split
    · exact alike.scopes _
    · exact .none
  · exact alike

end Context.Alike

end Lu
