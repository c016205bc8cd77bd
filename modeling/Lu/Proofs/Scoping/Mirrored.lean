import Lu.Proofs.Scoping.Lexical
import Lu.Proofs.Scoping.Resolution

namespace Lu

/-!
The tables that the resolution of names keeps hold just what lexical scoping shows.
-/

theorem Denotes.here {shown : Shown} {around : List Shown} {name : String}
    {declaration : Declaration} (member : (name, declaration) ∈ shown) :
    Denotes (shown :: around) name declaration :=
  ⟨[], shown, around, rfl, by simp, member⟩

theorem Denotes.further {shown : Shown} {around : List Shown} {name : String}
    {declaration : Declaration} (other : name ∉ shown.names)
    (denotes : Denotes around name declaration) : Denotes (shown :: around) name declaration := by
  obtain ⟨inner, found, outer, rfl, none, member⟩ := denotes
  exact ⟨shown :: inner, found, outer, rfl, List.forall_mem_cons.mpr ⟨other, none⟩, member⟩

theorem Denotes.cons_inv {shown : Shown} {around : List Shown} {name : String}
    {declaration : Declaration} (denotes : Denotes (shown :: around) name declaration) :
    (name, declaration) ∈ shown ∨ name ∉ shown.names ∧ Denotes around name declaration := by
  obtain ⟨_ | ⟨nearest, inner⟩, found, outer, shape, none, member⟩ := denotes
  · cases shape
    exact .inl member
  · cases shape
    obtain ⟨other, none⟩ := List.forall_mem_cons.mp none
    exact .inr ⟨other, inner, found, outer, rfl, none, member⟩

theorem Shown.mem_names {shown : Shown} {name : String} :
    name ∈ shown.names ↔ ∃ declaration, (name, declaration) ∈ shown := by
  simp [names]

@[simp] theorem Shown.names_append (shown more : Shown) :
    Shown.names (shown ++ more) = shown.names ++ more.names := List.map_append

namespace SymbolTable

/-- The table declares what the scope shows. -/
def Holds (table : SymbolTable) (shown : Shown) : Prop :=
  ∀ name declaration, table.values.lookup name = some declaration ↔ (name, declaration) ∈ shown

theorem Holds.lookup_eq_none {table : SymbolTable} {shown : Shown} (holds : table.Holds shown)
    {name : String} : table.values.lookup name = none ↔ name ∉ shown.names := by
  rw [Shown.mem_names, Option.eq_none_iff_forall_ne_some]
  simp only [ne_eq, holds name, not_exists]

theorem Holds.declare {table : SymbolTable} {shown : Shown} (holds : table.Holds shown)
    {name : String} (isNew : name ∉ shown.names) (declaration : Declaration) :
    Holds { table with values := (name, declaration) :: table.values }
      (shown ++ [(name, declaration)]) := by
  intro other found
  rw [List.lookup_cons, List.mem_append, List.mem_singleton]
  by_cases same : other = name
  · subst same
    have absent : ∀ found, (other, found) ∉ shown := fun found member =>
      isNew (Shown.mem_names.mpr ⟨found, member⟩)
    simp [absent, eq_comm]
  · rw [beq_eq_false_iff_ne.mpr same]
    simp [same, holds other]

end SymbolTable

namespace Scopes

/-- The tables hold what the scopes around a point show, and the types are those that there are. -/
structure Mirrors (scopes : Scopes) (around : List Shown) : Prop where
  values : List.Forall₂ SymbolTable.Holds scopes.tables around
  types : ∀ typeName ty, scopes.findType typeName = .ok ty ↔
    typeName.name ∈ typeWords ∧ ty = typeName.meaning

variable {scopes : Scopes} {shown : Shown} {around : List Shown}

/-- A name is found just if it denotes something, and then that is what is found. -/
theorem Mirrors.lookup (mirrors : scopes.Mirrors around) {name : String}
    {declaration : Declaration} :
    scopes.lookup name = some declaration ↔ Denotes around name declaration := by
  obtain ⟨tables⟩ := scopes
  have values : List.Forall₂ SymbolTable.Holds tables around := mirrors.values
  clear mirrors
  simp only [Scopes.lookup]
  induction values with
  | nil =>
    simp only [List.findSome?_nil, reduceCtorEq, false_iff]
    rintro ⟨inner, shown, outer, shape, -⟩
    simp at shape
  | @cons table shown tables around holds _ ih =>
    rw [List.findSome?_cons]
    cases found : table.values.lookup name with
    | none =>
      have other := holds.lookup_eq_none.mp found
      refine ih.trans ⟨.further other, fun denotes => ?_⟩
      rcases denotes.cons_inv with member | ⟨-, denotes⟩
      · exact (other (Shown.mem_names.mpr ⟨_, member⟩)).elim
      · exact denotes
    | some first =>
      have member := (holds name first).mp found
      constructor
      · intro same
        cases same
        exact .here member
      · intro denotes
        rcases denotes.cons_inv with also | ⟨other, -⟩
        · exact found.symm.trans ((holds name declaration).mpr also)
        · exact (other (Shown.mem_names.mpr ⟨_, member⟩)).elim

theorem Mirrors.means (mirrors : scopes.Mirrors around) {name : String} {found : Declaration}
    (atName : scopes.lookup name = some found) (declaration : Declaration) :
    Denotes around name declaration ↔ declaration = found := by
  rw [← mirrors.lookup, atName, Option.some_inj, eq_comm]

theorem Mirrors.isNew (mirrors : scopes.Mirrors (shown :: around)) {name : String} :
    scopes.IsNew name ↔ name ∉ shown.names := by
  obtain ⟨_ | ⟨table, tables⟩⟩ := scopes
  · cases mirrors.values
  · cases mirrors.values with
    | cons holds _ => exact holds.lookup_eq_none

theorem Mirrors.push (mirrors : scopes.Mirrors around) : scopes.push.Mirrors ([] :: around) :=
  ⟨.cons (by simp [SymbolTable.Holds]) mirrors.values, mirrors.types⟩

theorem Mirrors.bind (mirrors : scopes.Mirrors (shown :: around)) {name : String}
    (isNew : name ∉ shown.names) (declaration : Declaration) :
    (scopes.bind name declaration).Mirrors ((shown ++ [(name, declaration)]) :: around) := by
  refine ⟨?_, fun typeName ty => ?_⟩
  · obtain ⟨_ | ⟨table, tables⟩⟩ := scopes
    · cases mirrors.values
    · cases mirrors.values with
      | cons holds rest => exact .cons (holds.declare isNew declaration) rest
  · rw [findType_bind]
    exact mirrors.types typeName ty

/-- Just a name that the innermost scope does not show can be declared there. -/
theorem Mirrors.declare (mirrors : scopes.Mirrors (shown :: around)) {name : String}
    {declaration : Declaration} {span : Span} :
    (∃ bound, scopes.declare name declaration span = .ok bound) ↔ name ∉ shown.names := by
  simp only [declare_eq_ok, mirrors.isNew, exists_and_left, exists_eq, and_true]

/-- What is declared is shown from then on. -/
theorem Mirrors.declared (mirrors : scopes.Mirrors (shown :: around)) {name : String}
    {declaration : Declaration} {span : Span} {bound : Scopes}
    (run : scopes.declare name declaration span = .ok bound) :
    name ∉ shown.names ∧ bound.Mirrors ((shown ++ [(name, declaration)]) :: around) := by
  obtain ⟨isNew, rfl⟩ := declare_eq_ok.mp run
  have other := mirrors.isNew.mp isNew
  exact ⟨other, mirrors.bind other declaration⟩

theorem lookup_annotatable (name : String) :
    (Ty.annotatable.map fun ty => (ty.name, ty)).lookup name =
      if name ∈ typeWords then some ((Ty.ofName? name).getD .void) else none := by
  split
  · rename_i member
    simp only [typeWords, List.mem_cons, List.not_mem_nil, or_false] at member
    rcases member with rfl | rfl | rfl | rfl <;> decide
  · rename_i other
    rw [List.lookup_eq_none_iff]
    intro pair member
    obtain ⟨ty, annotatable, rfl⟩ := List.mem_map.mp member
    have words : ∀ ty ∈ Ty.annotatable, ty.name ∈ typeWords := by decide
    exact bne_iff_ne.mpr fun same => other (same ▸ words ty annotatable)

/-- The types that an annotation can name are found under their names. -/
theorem findType_ofNatives (natives : List NativeSignature) (typeName : TypeName) (ty : Ty) :
    (ofNatives natives).findType typeName = .ok ty ↔
      typeName.name ∈ typeWords ∧ ty = typeName.meaning := by
  have found : (ofNatives natives).tables.findSome? (·.types.lookup typeName.name) =
      if typeName.name ∈ typeWords then some typeName.meaning else none := by
    simp only [ofNatives, List.findSome?_cons, List.lookup_nil, List.findSome?_nil,
      lookup_annotatable, TypeName.meaning]
    split <;> exact Eq.symm ‹_›
  unfold findType
  rw [found]
  by_cases word : typeName.name ∈ typeWords
  · simp [word, eq_comm]
  · simp [word]

/-- At the start of a program its own scope is empty, and that around it shows what is built in. -/
theorem mirrors_ofNatives {natives : List NativeSignature}
    (distinct : (natives.map NativeSignature.name).Nodup) :
    (ofNatives natives).Mirrors [[], nativesShown natives] := by
  refine ⟨.cons (by simp [SymbolTable.Holds]) (.cons (fun name declaration => ?_) .nil),
    findType_ofNatives natives⟩
  rw [nativesShown]
  induction natives with
  | nil => simp
  | cons native rest ih =>
    obtain ⟨other, distinct⟩ := List.nodup_cons.mp distinct
    have ih := ih distinct
    simp only [List.map_cons, List.lookup_cons, List.mem_cons, Prod.mk.injEq]
    by_cases same : name = native.name
    · subst same
      have absent : (native.name, declaration) ∉
          rest.map fun native => (native.name, Declaration.function (.native native)) := by
        intro member
        obtain ⟨later, inRest, pair⟩ := List.mem_map.mp member
        exact other (List.mem_map.mpr ⟨later, inRest, (Prod.mk.inj pair).1⟩)
      simp [absent, eq_comm]
    · rw [beq_eq_false_iff_ne.mpr same]
      simp [same, ih]

end Scopes

end Lu
