import Lu.Proofs.Tree.Functions
import Lu.Proofs.Tree.Returned
import Lu.Proofs.Typing.WellTyped

namespace Lu

/-!
What a function of a well-typed program returns is of its result type.
-/

/-- After a `return` stands an expression of the result type, or nothing if that is `void`. -/
def Suits (result : Option Ty) : Option Expr → Prop
  | none => result = some .void
  | some e => e.Typed ∧ ∃ ty, result = some ty ∧ e.type.value? = some ty

/-- All that a function returns is of its result type. -/
def FunctionDecl.Answers (decl : FunctionDecl) : Prop :=
  ∃ function, decl.symbol.value? = some function ∧
    ∀ value ∈ decl.body.returned, Suits (some function.result) value

mutual

theorem Stmt.Elaborates.returned : ∀ {result : Option Ty} {types after : VariableTypes}
    {s s' : Stmt}, s.Elaborates result types s' after →
      ∀ value ∈ s'.returned, Suits result value
  | _, _, _, _, _, .expr _ | _, _, _, _, _, .letVar _ | _, _, _, _, _, .function _
  | _, _, _, _, _, .breakLoop | _, _, _, _, _, .continueLoop => nofun
  | _, _, _, _, _, .block body | _, _, _, _, _, .whileLoop _ body
  | _, _, _, _, _, .forLoop _ _ _ body | _, _, _, _, _, .ifThen _ body => body.returned
  | _, _, _, _, _, .ifElse _ thenBranch elseBranch =>
    List.forall_mem_append.mpr ⟨thenBranch.returned, elseBranch.returned⟩
  | _, _, _, _, _, .returnNothing => List.forall_mem_singleton.mpr rfl
  | _, _, _, _, _, .returnVoid value =>
    List.forall_mem_singleton.mpr ⟨value.typed, _, rfl, value.type⟩
  | _, _, _, _, _, .returnValue value _ =>
    List.forall_mem_singleton.mpr ⟨value.typed, _, rfl, value.type⟩

theorem Stmt.AllElaborate.returned : ∀ {result : Option Ty} {types : VariableTypes}
    {statements statements' : List Stmt}, Stmt.AllElaborate result types statements statements' →
      ∀ value ∈ Stmt.allReturned statements', Suits result value
  | _, _, _, _, .nil => nofun
  | _, _, _, _, .cons head rest => List.forall_mem_append.mpr ⟨head.returned, rest.returned⟩

theorem Block.Elaborates.returned : ∀ {result : Option Ty} {types : VariableTypes}
    {body body' : Block}, body.Elaborates result types body' →
      ∀ value ∈ body'.returned, Suits result value
  | _, _, _, _, .mk derived => derived.returned

end

mutual

theorem Stmt.Elaborates.answer : ∀ {result : Option Ty} {types after : VariableTypes} {s s' : Stmt},
    s.Elaborates result types s' after → ∀ decl ∈ s'.functions, decl.Answers
  | _, _, _, _, _, .function decl => decl.answer
  | _, _, _, _, _, .block body | _, _, _, _, _, .whileLoop _ body
  | _, _, _, _, _, .forLoop _ _ _ body | _, _, _, _, _, .ifThen _ body => body.answer
  | _, _, _, _, _, .ifElse _ thenBranch elseBranch =>
    List.forall_mem_append.mpr ⟨thenBranch.answer, elseBranch.answer⟩
  | _, _, _, _, _, .expr _ | _, _, _, _, _, .letVar _ | _, _, _, _, _, .breakLoop
  | _, _, _, _, _, .continueLoop | _, _, _, _, _, .returnNothing | _, _, _, _, _, .returnVoid _
  | _, _, _, _, _, .returnValue _ _ => nofun

theorem Stmt.AllElaborate.answer : ∀ {result : Option Ty} {types : VariableTypes}
    {statements statements' : List Stmt}, Stmt.AllElaborate result types statements statements' →
      ∀ decl ∈ Stmt.allFunctions statements', decl.Answers
  | _, _, _, _, .nil => nofun
  | _, _, _, _, .cons head rest => List.forall_mem_append.mpr ⟨head.answer, rest.answer⟩

theorem Block.Elaborates.answer : ∀ {result : Option Ty} {types : VariableTypes}
    {body body' : Block}, body.Elaborates result types body' →
      ∀ decl ∈ body'.functions, decl.Answers
  | _, _, _, _, .mk derived => derived.answer

theorem FunctionDecl.Elaborates.answer : ∀ {types : VariableTypes} {decl decl' : FunctionDecl},
    decl.Elaborates types decl' → ∀ inner ∈ decl'.functions, inner.Answers
  | _, _, _, .mk stored body _ => List.forall_mem_append.mpr
    ⟨body.answer, List.forall_mem_singleton.mpr ⟨_, stored, body.returned⟩⟩

end

theorem Program.Elaborates.answer {program typed : Program}
    (elaborates : program.Elaborates typed) : ∀ decl ∈ typed.functions, decl.Answers := by
  cases elaborates with
  | mk derived => exact derived.answer

end Lu
