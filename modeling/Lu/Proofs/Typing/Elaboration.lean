import Lu.Proofs.Scoping.Lexical
import Lu.Proofs.Typing.Retyping
import Lu.Proofs.Typing.Typed

namespace Lu

/-!
The type system as one judgement on a tree whose names are resolved. A derivation gives each
expression its type; with a tree goes the tree in which these types are written down.
-/

/-- The types of what can be held in a variable, passed and returned. -/
def Ty.IsValue (ty : Ty) : Prop := ty = .int ∨ ty = .float ∨ ty = .str

def Ty.IsNumber (ty : Ty) : Prop := ty = .int ∨ ty = .float

namespace BinaryOp

def arithmetic : List BinaryOp := [add, sub, mul, div, mod, pow]

def logical : List BinaryOp := [or, and]

def comparisons : List BinaryOp := [equal, notEqual, less, lessEqual, greater, greaterEqual]

/-- The table of binary operators. -/
inductive Gives : BinaryOp → Ty → Ty → Ty → Prop
  | integers {op} : op ∈ arithmetic → Gives op .int .int .int
  | floats {op left right} : op ∈ arithmetic → left.IsNumber → right.IsNumber →
      left = .float ∨ right = .float → Gives op left right .float
  | truths {op} : op ∈ logical → Gives op .int .int .int
  | numbers {op left right} : op ∈ comparisons → left.IsNumber → right.IsNumber →
      Gives op left right .int
  | strings {op} : op ∈ comparisons → Gives op .str .str .int

end BinaryOp

/-- The table of unary operators. -/
inductive UnaryOp.Gives : UnaryOp → Ty → Ty → Prop
  | sign {op operand} : op ∈ [neg, plus] → operand.IsNumber → Gives op operand operand
  | truth : Gives .not .int .int

/-- The type of a variable: a parameter has it from its header, the others from their
declarations. -/
def VariableSymbol.HasType (types : VariableTypes) (s : VariableSymbol) (ty : Ty) : Prop :=
  s.type.value? = some ty ∨ s.type.value? = none ∧ types.lookup s = some ty

/-- A function takes arguments of the types, one for each parameter. A parameter of a built-in
function may take several types. -/
def Callee.Admits (argTypes : List Ty) : Callee → Prop
  | .user function => List.Forall₂ (fun ty param => param.type.value? = some ty ∧ ty.IsValue)
    argTypes function.params
  | .native signature => List.Forall₂ (fun ty param => ty ∈ param.takes ∧ ty.IsValue)
    argTypes signature.params

def ExprNote.withType (note : ExprNote) (ty : Ty) : ExprNote := { note with type := ⟨some ty⟩ }

mutual

/-- The expression has the type; then follows the expression with all types written down. -/
inductive Expr.Elaborates (types : VariableTypes) : Expr → Ty → Expr → Prop
  | literal {note value} : Expr.Elaborates types (.literal note value) value.type
      (.literal (note.withType value.type) value)
  | variable {note name symbol s ty} : symbol.value? = some s → s.HasType types ty →
      Expr.Elaborates types (.variable note name symbol) ty
        (.variable (note.withType ty) name ⟨some (s.withType ty)⟩)
  | assign {note target target' value value' ty} : target.isVariable = true →
      Expr.Elaborates types target ty target' → Expr.Elaborates types value ty value' →
      ty.IsValue → Expr.Elaborates types (.assign note target value) .void
        (.assign (note.withType .void) target' value')
  | binary {note op left left' right right' leftType rightType ty} :
      Expr.Elaborates types left leftType left' → Expr.Elaborates types right rightType right' →
      op.Gives leftType rightType ty → Expr.Elaborates types (.binary note op left right) ty
        (.binary (note.withType ty) op left' right')
  | unary {note op operand operand' operandType ty} :
      Expr.Elaborates types operand operandType operand' → op.Gives operandType ty →
      Expr.Elaborates types (.unary note op operand) ty (.unary (note.withType ty) op operand')
  | call {note name nameSpan args args' argTypes callee c} : callee.value? = some c →
      Expr.AllElaborate types args argTypes args' → c.Admits argTypes →
      Expr.Elaborates types (.call note name nameSpan args callee) c.result
        (.call (note.withType c.result) name nameSpan args' callee)

inductive Expr.AllElaborate (types : VariableTypes) : List Expr → List Ty → List Expr → Prop
  | nil : Expr.AllElaborate types [] [] []
  | cons {e ty e' rest restTypes rest'} : Expr.Elaborates types e ty e' →
      Expr.AllElaborate types rest restTypes rest' →
      Expr.AllElaborate types (e :: rest) (ty :: restTypes) (e' :: rest')

end

/-- A variable of the kind has the type of its initial value, which is that of its annotation if it
has one; what follows are the declaration with all types written down and the types after it. -/
inductive VarDecl.Elaborates (types : VariableTypes) (kind : VariableKind) :
    VarDecl → Ty → VarDecl → VariableTypes → Prop
  | mk {decl s ty init'} : decl.symbol.value? = some s → s.kind = kind →
      decl.init.Elaborates types ty init' → ty.IsValue →
      (∀ typeName, decl.typeName = some typeName → typeName.meaning = ty) →
      VarDecl.Elaborates types kind decl ty
        { decl with init := init', symbol := ⟨some (s.withType ty)⟩ } ((s, ty) :: types)

/-- A loop starts from an integer. -/
inductive ForInit.Elaborates (types : VariableTypes) : ForInit → ForInit → VariableTypes → Prop
  | letVar {decl decl' after} : decl.Elaborates types .iterator .int decl' after →
      ForInit.Elaborates types (.letVar decl) (.letVar decl') after
  | assign {e ty e'} : e.Elaborates types ty e' →
      (∀ note target value, e' = .assign note target value → target.type.value? = some .int) →
      ForInit.Elaborates types (.assign e) (.assign e') types

mutual

/-- The statement is well typed inside a function of the result, if it is inside one. -/
inductive Stmt.Elaborates :
    Option Ty → VariableTypes → Stmt → Stmt → VariableTypes → Prop
  | expr {result types span e ty e'} : e.Elaborates types ty e' →
      Stmt.Elaborates result types (.expr span e) (.expr span e') types
  | letVar {result types span decl ty decl' after} :
      decl.Elaborates types .localVar ty decl' after →
      Stmt.Elaborates result types (.letVar span decl) (.letVar span decl') after
  | function {result types span decl decl'} : FunctionDecl.Elaborates types decl decl' →
      Stmt.Elaborates result types (.function span decl) (.function span decl') types
  | block {result types span body body'} : Block.Elaborates result types body body' →
      Stmt.Elaborates result types (.block span body) (.block span body') types
  | ifThen {result types span condition condition' thenBranch thenBranch'} :
      condition.Elaborates types .int condition' →
      Block.Elaborates result types thenBranch thenBranch' →
      Stmt.Elaborates result types (.ifElse span condition thenBranch none)
        (.ifElse span condition' thenBranch' none) types
  | ifElse {result types span condition condition' thenBranch thenBranch' elseBranch elseBranch'} :
      condition.Elaborates types .int condition' →
      Block.Elaborates result types thenBranch thenBranch' →
      Block.Elaborates result types elseBranch elseBranch' →
      Stmt.Elaborates result types (.ifElse span condition thenBranch (some elseBranch))
        (.ifElse span condition' thenBranch' (some elseBranch')) types
  | whileLoop {result types span condition condition' body body'} :
      condition.Elaborates types .int condition' → Block.Elaborates result types body body' →
      Stmt.Elaborates result types (.whileLoop span condition body)
        (.whileLoop span condition' body') types
  | forLoop {result types inner span init init' condition condition' step stepType step' body
        body'} :
      init.Elaborates types init' inner → condition.Elaborates inner .int condition' →
      step.Elaborates inner stepType step' → Block.Elaborates result inner body body' →
      Stmt.Elaborates result types (.forLoop span init condition step body)
        (.forLoop span init' condition' step' body') types
  | breakLoop {result types span} :
      Stmt.Elaborates result types (.breakLoop span) (.breakLoop span) types
  | continueLoop {result types span} :
      Stmt.Elaborates result types (.continueLoop span) (.continueLoop span) types
  | returnNothing {types span} :
      Stmt.Elaborates (some .void) types (.returnValue span none) (.returnValue span none) types
  /-- A function without a result may return what has no value. -/
  | returnVoid {types span value value'} : value.Elaborates types .void value' →
      Stmt.Elaborates (some .void) types (.returnValue span (some value))
        (.returnValue span (some value')) types
  | returnValue {types span value ty value'} : value.Elaborates types ty value' → ty.IsValue →
      Stmt.Elaborates (some ty) types (.returnValue span (some value))
        (.returnValue span (some value')) types

inductive Stmt.AllElaborate : Option Ty → VariableTypes → List Stmt → List Stmt → Prop
  | nil {result types} : Stmt.AllElaborate result types [] []
  | cons {result types after s s' rest rest'} : Stmt.Elaborates result types s s' after →
      Stmt.AllElaborate result after rest rest' →
      Stmt.AllElaborate result types (s :: rest) (s' :: rest')

inductive Block.Elaborates : Option Ty → VariableTypes → Block → Block → Prop
  | mk {result types span statements statements'} :
      Stmt.AllElaborate result types statements statements' →
      Block.Elaborates result types ⟨span, statements⟩ ⟨span, statements'⟩

/-- The body returns the result of the function, at its end at the latest. -/
inductive FunctionDecl.Elaborates : VariableTypes → FunctionDecl → FunctionDecl → Prop
  | mk {types id name nameSpan params resultName body body' span symbol function} :
      symbol.value? = some function →
      Block.Elaborates (some function.result) types body body' → body'.EndsInReturn →
      FunctionDecl.Elaborates types
        ⟨id, name, nameSpan, params, resultName, body, span, symbol⟩
        ⟨id, name, nameSpan, params, resultName, body', span, symbol⟩

end

/-- Outside of functions nothing is returned. -/
inductive Program.Elaborates : Program → Program → Prop
  | mk {statements statements' span} : Stmt.AllElaborate none [] statements statements' →
      Program.Elaborates ⟨statements, span⟩ ⟨statements', span⟩

namespace BinaryOp

theorem mem_arithmetic {op : BinaryOp} : op ∈ arithmetic ↔ op.family = .arithmetic := by
  cases op <;> decide

theorem mem_logical {op : BinaryOp} : op ∈ logical ↔ op.family = .logical := by
  cases op <;> decide

theorem mem_comparisons {op : BinaryOp} :
    op ∈ comparisons ↔ op.family = .equality ∨ op.family = .relational := by
  cases op <;> decide

end BinaryOp

theorem Ty.promote?_eq_some {left right ty : Ty} :
    left.promote? right = some ty ↔ left = .int ∧ right = .int ∧ ty = .int ∨
      left.IsNumber ∧ right.IsNumber ∧ (left = .float ∨ right = .float) ∧ ty = .float := by
  cases left <;> cases right <;> simp [promote?, IsNumber, eq_comm]

theorem Ty.promote?_isSome {left right : Ty} :
    (left.promote? right).isSome = true ↔ left.IsNumber ∧ right.IsNumber := by
  cases left <;> cases right <;> simp [promote?, IsNumber]

/-- The table of binary operators is the one that the checker goes by. -/
theorem BinaryOp.gives_iff {op : BinaryOp} {left right ty : Ty} :
    op.Gives left right ty ↔ op.resultType? left right = some ty := by
  have comparing : op ∈ comparisons → op.resultType? left right =
      if (left.promote? right).isSome ∨ (left = .str ∧ right = .str) then some .int else none := by
    intro member
    rcases mem_comparisons.mp member with family | family <;> rw [resultType?, family]
  constructor
  · intro gives
    cases gives with
    | integers member =>
      rw [resultType?, mem_arithmetic.mp member]
      rfl
    | floats member leftNumber rightNumber float =>
      rw [resultType?, mem_arithmetic.mp member]
      exact Ty.promote?_eq_some.mpr (.inr ⟨leftNumber, rightNumber, float, rfl⟩)
    | truths member =>
      rw [resultType?, mem_logical.mp member]
      rfl
    | numbers member leftNumber rightNumber =>
      rw [comparing member, if_pos (.inl (Ty.promote?_isSome.mpr ⟨leftNumber, rightNumber⟩))]
    | strings member => rw [comparing member, if_pos (.inr ⟨rfl, rfl⟩)]
  · intro gives
    cases family : op.family with
    | arithmetic =>
      have member := mem_arithmetic.mpr family
      rw [resultType?, family] at gives
      rcases Ty.promote?_eq_some.mp gives with
        ⟨rfl, rfl, rfl⟩ | ⟨leftNumber, rightNumber, float, rfl⟩
      · exact .integers member
      · exact .floats member leftNumber rightNumber float
    | logical =>
      have member := mem_logical.mpr family
      rw [resultType?, family] at gives
      have gives : (if left = .int ∧ right = .int then some Ty.int else none) = some ty := gives
      split at gives
      · rename_i both
        obtain ⟨rfl, rfl⟩ := both
        cases gives
        exact .truths member
      · cases gives
    | equality | relational =>
      have member : op ∈ comparisons := mem_comparisons.mpr (by simp [family])
      rw [comparing member] at gives
      split at gives
      · rename_i comparable
        cases gives
        rcases comparable with numbers | ⟨rfl, rfl⟩
        · obtain ⟨leftNumber, rightNumber⟩ := Ty.promote?_isSome.mp numbers
          exact .numbers member leftNumber rightNumber
        · exact .strings member
      · cases gives

theorem UnaryOp.gives_iff {op : UnaryOp} {operand ty : Ty} :
    op.Gives operand ty ↔ op.resultType? operand = some ty := by
  constructor
  · intro gives
    cases gives with
    | sign member number =>
      simp only [List.mem_cons, List.not_mem_nil, or_false] at member
      rcases member with rfl | rfl <;> rcases number with rfl | rfl <;> rfl
    | truth => rfl
  · intro gives
    cases op with
    | neg | plus =>
      cases operand with
      | int | float =>
        cases gives
        exact .sign (by simp) (by simp [Ty.IsNumber])
      | str | void | nil => cases gives
    | not =>
      cases operand with
      | int =>
        cases gives
        exact .truth
      | float | str | void | nil => cases gives

/-- A reference takes over its symbol with the type that the variable has. -/
theorem VariableSymbol.typed_iff {types : VariableTypes} {s filled : VariableSymbol} {ty : Ty} :
    s.typed types = .ok (filled, ty) ↔ s.HasType types ty ∧ filled = s.withType ty := by
  constructor
  · intro run
    obtain ⟨known, rfl⟩ | ⟨unset, known, rfl⟩ := VariableSymbol.typed_eq_ok run
    · refine ⟨.inl known, ?_⟩
      obtain ⟨name, span, kind, ⟨type⟩⟩ := filled
      cases known
      rfl
    · exact ⟨.inr ⟨unset, known⟩, rfl⟩
  · rintro ⟨known | ⟨unset, known⟩, rfl⟩
    · obtain ⟨name, span, kind, ⟨type⟩⟩ := s
      cases known
      rfl
    · unfold typed
      rw [unset, known]
      rfl

end Lu
