import Lu.Proofs.Typing.Soundness

namespace Lu

/-!
A tree that has a derivation in the type system keeps the promises of its types.
-/

theorem Ty.IsValue.ne_void {ty : Ty} (isValue : ty.IsValue) : ty ≠ .void :=
  (isValue_iff.mp isValue).1

/-- Two lists go together by way of a third one. -/
theorem forall₂_zip_through {α β γ : Type} {first : α → β → Prop} {second : β → γ → Prop}
    {as : List α} {bs : List β} (known : List.Forall₂ first as bs) :
    ∀ {cs : List γ}, List.Forall₂ second bs cs →
      ∀ a c, (a, c) ∈ as.zip cs → ∃ b, first a b ∧ second b c := by
  induction known with
  | nil => simp
  | cons atHead _ ih =>
    intro cs through a c member
    cases through with
    | cons here later =>
      rcases List.mem_cons.mp member with same | member
      · cases same
        exact ⟨_, atHead, here⟩
      · exact ih later a c member

theorem Callee.Admits.takes {c : Callee} {args : List Expr} {argTypes : List Ty}
    (admits : c.Admits argTypes)
    (known : List.Forall₂ (fun arg ty => arg.type.value? = some ty) args argTypes) :
    c.Takes args := by
  cases c with
  | user function =>
    intro arg param member
    obtain ⟨ty, atArg, atParam, isValue⟩ := forall₂_zip_through known admits arg param member
    exact ⟨ty, ty, atArg, atParam, Ty.accepts_iff_isValue.mpr ⟨rfl, isValue⟩⟩
  | native signature =>
    intro arg param member
    obtain ⟨ty, atArg, takes⟩ := forall₂_zip_through known admits arg param member
    exact ⟨ty, atArg, NativeParam.accepts_iff.mpr takes⟩

section Expressions

variable {types : VariableTypes}

mutual

theorem Expr.Elaborates.typed : ∀ {e e' : Expr} {ty : Ty}, e.Elaborates types ty e' → e'.Typed
  | _, _, _, .literal => .literal rfl
  | _, _, _, .variable _ _ => .variable rfl rfl rfl
  | _, _, _, .assign _ target value isValue =>
    .assign target.typed value.typed target.type value.type isValue.ne_void rfl
  | _, _, _, .binary left right gives =>
    .binary left.typed right.typed left.type right.type (BinaryOp.gives_iff.mp gives) rfl
  | _, _, _, .unary operand gives =>
    .unary operand.typed operand.type (UnaryOp.gives_iff.mp gives) rfl
  | _, _, _, .call stored derived admits =>
    .call derived.typed stored (admits.takes derived.known) rfl

theorem Expr.AllElaborate.typed : ∀ {args args' : List Expr} {argTypes : List Ty},
    Expr.AllElaborate types args argTypes args' → ∀ arg ∈ args', arg.Typed
  | _, _, _, .nil => nofun
  | _, _, _, .cons head rest => List.forall_mem_cons.mpr ⟨head.typed, rest.typed⟩

end

theorem Expr.Elaborates.decides {e e' : Expr} (derived : e.Elaborates types .int e') : e'.Decides :=
  ⟨derived.typed, derived.type⟩

theorem VarDecl.Elaborates.typed {kind : VariableKind} {decl decl' : VarDecl} {ty : Ty}
    {after : VariableTypes} (elaborates : decl.Elaborates types kind ty decl' after) :
    ∃ binding, decl'.Typed binding := by
  cases elaborates with
  | mk _ _ derived isValue _ =>
    exact ⟨_, derived.typed, rfl, ty, rfl, derived.type, isValue.ne_void⟩

theorem ForInit.Elaborates.typed {init init' : ForInit} {after : VariableTypes}
    (elaborates : init.Elaborates types init' after) : init'.Typed := by
  cases elaborates with
  | letVar decl => exact decl.typed
  | assign derived => exact derived.typed

end Expressions

mutual

theorem Stmt.Elaborates.typed : ∀ {result : Option Ty} {types after : VariableTypes} {s s' : Stmt},
    s.Elaborates result types s' after → s'.Typed result
  | _, _, _, _, _, .expr derived => derived.typed
  | _, _, _, _, _, .letVar decl => decl.typed
  | _, _, _, _, _, .function decl => decl.typed
  | _, _, _, _, _, .block body => body.typed
  | _, _, _, _, _, .ifThen condition thenBranch => ⟨condition.decides, thenBranch.typed⟩
  | _, _, _, _, _, .ifElse condition thenBranch elseBranch =>
    ⟨condition.decides, thenBranch.typed, elseBranch.typed⟩
  | _, _, _, _, _, .whileLoop condition body => ⟨condition.decides, body.typed⟩
  | _, _, _, _, _, .forLoop init condition step body =>
    ⟨init.typed, condition.decides, step.typed, body.typed⟩
  | _, _, _, _, _, .breakLoop | _, _, _, _, _, .continueLoop => trivial
  | _, _, _, _, _, .returnNothing => .inr rfl
  | _, _, _, _, _, .returnVoid value =>
    ⟨value.typed, fun _ same notVoid => (notVoid (Option.some.inj same).symm).elim⟩
  | _, _, _, _, _, .returnValue value _ => ⟨value.typed, fun _ same _ => same ▸ value.type⟩

theorem Stmt.AllElaborate.typed : ∀ {result : Option Ty} {types : VariableTypes}
    {statements statements' : List Stmt},
    Stmt.AllElaborate result types statements statements' → Stmt.AllTyped result statements'
  | _, _, _, _, .nil => trivial
  | _, _, _, _, .cons head rest => ⟨head.typed, rest.typed⟩

theorem Block.Elaborates.typed : ∀ {result : Option Ty} {types : VariableTypes}
    {body body' : Block}, body.Elaborates result types body' → body'.Typed result
  | _, _, _, _, .mk derived => derived.typed

theorem FunctionDecl.Elaborates.typed : ∀ {types : VariableTypes} {decl decl' : FunctionDecl},
    decl.Elaborates types decl' → decl'.Typed
  | _, _, _, .mk stored body ends => ⟨_, stored, body.typed, ends⟩

end

theorem Program.Elaborates.typed {program typed : Program}
    (elaborates : program.Elaborates typed) : typed.Typed := by
  cases elaborates with
  | mk derived => exact derived.typed

end Lu
