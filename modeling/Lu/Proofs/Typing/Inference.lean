import Lu.Proofs.Except
import Lu.Proofs.Typing.Plain

namespace Lu

/-!
What a success of the step that finds types tells, place by place.
-/

theorem ExprNote.setType_eq_ok {note filled : ExprNote} {ty : Ty} :
    note.setType ty = .ok filled ↔
      note.type.value? = none ∧ filled = { note with type := ⟨some ty⟩ } := by
  unfold setType
  simp only [bind_eq_ok, Check.lift_eq_ok, Attribute.set_eq_ok, pure_eq_ok]
  constructor
  · rintro ⟨_, ⟨unset, rfl⟩, rfl⟩
    exact ⟨unset, rfl⟩
  · rintro ⟨unset, rfl⟩
    exact ⟨_, ⟨unset, rfl⟩, rfl⟩

/-- A reference takes over its symbol with the type in it. -/
theorem VariableSymbol.typed_eq_ok {types : VariableTypes} {s filled : VariableSymbol} {ty : Ty}
    (run : s.typed types = .ok (filled, ty)) :
    s.type.value? = some ty ∧ filled = s ∨
      s.type.value? = none ∧ types.lookup s = some ty ∧ filled = { s with type := ⟨some ty⟩ } := by
  unfold typed at run
  split at run
  · rename_i unset known
    cases run
    exact .inr ⟨unset, known, rfl⟩
  · obtain ⟨found, known, run⟩ := bind_eq_ok.mp run
    cases run
    exact .inl ⟨Attribute.get_eq_ok.mp known, rfl⟩

/-- The filled declaration has the symbol of the unfilled one, with its type. -/
theorem VarDecl.resolveTypes_eq_ok {types after : VariableTypes} {decl decl' : VarDecl}
    (run : decl.resolveTypes types = .ok (decl', after)) :
    ∃ init s ty, decl.init.resolveTypes types = .ok init ∧ decl.symbol.value? = some s ∧
      (s.kind ≠ .iterator → init.type.value? = some ty) ∧ (s.kind = .iterator → ty = .int) ∧
      s.type.value? = none ∧ after = (s, ty) :: types ∧
      decl' = { decl with init, symbol := ⟨some { s with type := ⟨some ty⟩ }⟩ } := by
  obtain ⟨init, atInit, run⟩ := bind_eq_ok.mp run
  obtain ⟨s, known, run⟩ := bind_eq_ok.mp run
  obtain ⟨ty, chosen, run⟩ := bind_eq_ok.mp run
  obtain ⟨type, filled, run⟩ := bind_eq_ok.mp run
  cases run
  obtain ⟨unset, rfl⟩ := Attribute.set_eq_ok.mp (Check.lift_eq_ok.mp filled)
  refine ⟨init, s, ty, atInit, by simpa using known, ?_, ?_, unset, rfl, rfl⟩
  · intro plain
    cases kind : s.kind with
    | iterator => exact (plain kind).elim
    | localVar | parameter =>
      rw [kind] at chosen
      exact Attribute.get_eq_ok.mp (Check.lift_eq_ok.mp chosen)
  · intro iterator
    rw [iterator] at chosen
    exact (pure_eq_ok.mp chosen).symm

end Lu
