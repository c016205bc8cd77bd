import Lu.Proofs.Check.Together
import Lu.Proofs.Scoping.Statements
import Lu.Proofs.Tree.Rearranged

namespace Lu

/-!
Scopes in which every name is found alike. It cannot be told from them in which order their names were
declared.
-/

structure SymbolTable.Alike (a b : SymbolTable) : Prop where
  values : ∀ name, b.values.lookup name = a.values.lookup name
  types : b.types = a.types

def Scopes.Alike (a b : Scopes) : Prop := List.Forall₂ SymbolTable.Alike a.tables b.tables

theorem SymbolTable.alike_self (table : SymbolTable) : table.Alike table := ⟨fun _ => rfl, rfl⟩

theorem SymbolTable.Alike.symm {a b : SymbolTable} (alike : a.Alike b) : b.Alike a :=
  ⟨fun name => (alike.values name).symm, alike.types.symm⟩

theorem Scopes.alike_self (scopes : Scopes) : scopes.Alike scopes :=
  List.forall₂_same.mpr fun table _ => table.alike_self

theorem Scopes.IsNew.bind {scopes : Scopes} {name other : String} (isNew : scopes.IsNew other)
    (apart : other ≠ name) (declaration : Declaration) :
    (scopes.bind name declaration).IsNew other := by
  have differs : (other == name) = false := beq_eq_false_iff_ne.mpr apart
  rcases scopes with ⟨_ | ⟨inner, outer⟩⟩
  · simp [IsNew, Scopes.bind, List.lookup_cons, differs]
  · simpa [IsNew, Scopes.bind, List.lookup_cons, differs] using isNew

namespace Scopes.Alike

variable {a b : Scopes}

theorem symm (alike : a.Alike b) : b.Alike a :=
  List.Forall₂.flip (alike.imp fun _ _ table => table.symm)

theorem push (alike : a.Alike b) : a.push.Alike b.push :=
  .cons (SymbolTable.alike_self {}) alike

theorem lookup_eq (alike : a.Alike b) (name : String) : b.lookup name = a.lookup name := by
  obtain ⟨tables⟩ := a
  obtain ⟨tables'⟩ := b
  simp only [Scopes.Alike] at alike
  simp only [lookup]
  induction alike with
  | nil => rfl
  | cons table _ ih => simp only [List.findSome?_cons, table.values, ih]

theorem findType_eq (alike : a.Alike b) (typeName : TypeName) :
    b.findType typeName = a.findType typeName := by
  have found : b.tables.findSome? (·.types.lookup typeName.name) =
      a.tables.findSome? (·.types.lookup typeName.name) := by
    obtain ⟨tables⟩ := a
    obtain ⟨tables'⟩ := b
    simp only [Scopes.Alike] at alike
    induction alike with
    | nil => rfl
    | cons table _ ih => simp only [List.findSome?_cons, table.types, ih]
  simp only [findType, found]

theorem findVariable_eq (alike : a.Alike b) (name : String) (span : Span) :
    b.findVariable name span = a.findVariable name span := by
  simp only [findVariable, alike.lookup_eq]

theorem findFunction_eq (alike : a.Alike b) (name : String) (span : Span) :
    b.findFunction name span = a.findFunction name span := by
  simp only [findFunction, alike.lookup_eq]

theorem isNew (alike : a.Alike b) {name : String} (isNew : a.IsNew name) : b.IsNew name := by
  obtain ⟨tables⟩ := a
  obtain ⟨tables'⟩ := b
  cases alike with
  | nil => exact isNew
  | cons table _ => exact (table.values name).trans isNew

theorem bind (alike : a.Alike b) (name : String) (declaration : Declaration) :
    (a.bind name declaration).Alike (b.bind name declaration) := by
  obtain ⟨tables⟩ := a
  obtain ⟨tables'⟩ := b
  cases alike with
  | nil => exact Scopes.alike_self _
  | cons table rest =>
    exact .cons ⟨fun other => by simp only [List.lookup_cons, table.values], table.types⟩ rest

/-- The names differ, so it does not matter which of them is found first. -/
theorem bind_swapped (alike : a.Alike b) {name name' : String} (apart : name' ≠ name)
    (declaration declaration' : Declaration) :
    ((a.bind name declaration).bind name' declaration').Alike
      ((b.bind name' declaration').bind name declaration) := by
  have found (values values' : List (String × Declaration))
      (same : ∀ wanted, values'.lookup wanted = values.lookup wanted) (wanted : String) :
      ((name, declaration) :: (name', declaration') :: values').lookup wanted =
        ((name', declaration') :: (name, declaration) :: values).lookup wanted := by
    simp only [List.lookup_cons, same]
    by_cases atName : wanted = name
    · have notOther : (wanted == name') = false := by simpa [atName] using apart.symm
      simp only [notOther]
    · have notName : (wanted == name) = false := by simpa using atName
      simp only [notName]
  obtain ⟨tables⟩ := a
  obtain ⟨tables'⟩ := b
  cases alike with
  | nil => exact .cons ⟨found [] [] fun _ => rfl, rfl⟩ .nil
  | cons table rest => exact .cons ⟨found _ _ table.values, table.types⟩ rest

theorem declare (alike : a.Alike b) (name : String) (declaration : Declaration) (span : Span) :
    Check.Together Scopes.Alike (a.declare name declaration span)
      (b.declare name declaration span) := by
  refine .of_ok (fun bound declares => ?_) fun bound declares => ?_
  · obtain ⟨isNew, rfl⟩ := declare_eq_ok.mp declares
    exact ⟨_, declare_eq_ok.mpr ⟨alike.isNew isNew, rfl⟩, alike.bind name declaration⟩
  · obtain ⟨isNew, rfl⟩ := declare_eq_ok.mp declares
    exact ⟨_, declare_eq_ok.mpr ⟨alike.symm.isNew isNew, rfl⟩⟩

section Swapped

variable {name name' : String} {declaration declaration' : Declaration} {span span' : Span}

/-- Two names can be declared in either order. -/
theorem declare_swapped_ok (alike : a.Alike b) {bound : Scopes}
    (declares : (a.declare name declaration span >>= fun inner =>
      inner.declare name' declaration' span') = .ok bound) :
    ∃ bound', (b.declare name' declaration' span' >>= fun inner =>
      inner.declare name declaration span) = .ok bound' ∧ bound.Alike bound' := by
  obtain ⟨between, first, second⟩ := bind_eq_ok.mp declares
  obtain ⟨isNew, rfl⟩ := declare_eq_ok.mp first
  obtain ⟨isNew', rfl⟩ := declare_eq_ok.mp second
  obtain ⟨apart, isNew'⟩ := Scopes.isNew_of_bind isNew'
  have later := (alike.isNew isNew).bind apart.symm declaration'
  refine ⟨_, bind_eq_ok.mpr ⟨_, declare_eq_ok.mpr ⟨alike.isNew isNew', rfl⟩,
    declare_eq_ok.mpr ⟨later, rfl⟩⟩, ?_⟩
  exact alike.bind_swapped apart declaration declaration'

end Swapped

end Scopes.Alike

end Lu
