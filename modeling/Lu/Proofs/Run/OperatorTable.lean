import Lu.Proofs.Decimal.Word
import Lu.Run.Operators

namespace Lu

/-!
Operators do what the table of types says. Operands that it has a type for give a value of that type,
or an error that only integers can meet. All other operands clash, but any two values can be equal or
not.
-/

/-- The errors that arithmetic on integers can end in. -/
inductive RuntimeErrorKind.Arithmetic : RuntimeErrorKind → Prop
  | division : Arithmetic .divisionByZero
  | modulo : Arithmetic .moduloByZero
  | overflow (operation : String) : Arithmetic (.integerOverflow operation)

/-- The attempt gives what is promised, or ends in an error of arithmetic. -/
inductive Computes {α : Type} (post : α → Prop) : Except RuntimeErrorKind α → Prop
  | value {value : α} : post value → Computes post (.ok value)
  | error {kind : RuntimeErrorKind} : kind.Arithmetic → Computes post (.error kind)

namespace Computes

variable {α β : Type} {post : α → Prop} {later : β → Prop}

theorem map {first : Except RuntimeErrorKind α} {change : α → β} (atFirst : Computes post first)
    (atChange : ∀ value, post value → later (change value)) : Computes later (first.map change) := by
  cases atFirst with
  | value promised => exact .value (atChange _ promised)
  | error arithmetic => exact .error arithmetic

theorem ite {condition : Prop} [Decidable condition] {first second : Except RuntimeErrorKind α}
    (atFirst : Computes post first) (atSecond : Computes post second) :
    Computes post (if condition then first else second) := by
  split
  · exact atFirst
  · exact atSecond

end Computes

theorem checkedInt_computes (operation : String) (result : Int) :
    Computes (fun _ => True) (checkedInt operation result) := by
  unfold checkedInt
  split
  · exact .value trivial
  · exact .error (.overflow operation)

theorem intPow_computes (base exponent : Int64) : Computes (fun _ => True) (intPow base exponent) := by
  unfold intPow
  refine .ite (.ite (.error .division) (.value trivial)) ?_
  refine .ite (.value trivial) (.ite (.value trivial) (.ite (.value trivial) ?_))
  split
  · exact .value trivial
  · exact .error (.overflow _)

theorem intBinary_computes (op : BinaryOp) (a b : Int64) :
    Computes (fun value => value.type = .int) (intBinary op a b) := by
  have checked (operation : String) (result : Int) :
      Computes (fun value => value.type = Ty.int) ((checkedInt operation result).map Value.int) :=
    (checkedInt_computes operation result).map fun _ _ => rfl
  cases op with
  | add | sub | mul => exact checked _ _
  | div => exact .ite (.error .division) (checked _ _)
  | mod => exact .ite (.error .modulo) (.ite (.error (.overflow _)) (checked _ _))
  | pow => exact (intPow_computes a b).map fun _ _ => rfl
  | equal | notEqual | less | lessEqual | greater | greaterEqual | and | or => exact .value rfl

/-- How a binary operator ends on two values, by what the table has for their types. -/
inductive BinaryOp.Ends (op : BinaryOp) (left right : Value) :
    Option Ty → Except RuntimeErrorKind Value → Prop
  | value {ty : Ty} {value : Value} : value.type = ty → Ends op left right (some ty) (.ok value)
  | arithmetic {ty : Ty} {kind : RuntimeErrorKind} : left.type = .int → right.type = .int →
      op.family = .arithmetic → kind.Arithmetic → Ends op left right (some ty) (.error kind)
  /-- What the table has nothing for can be told apart all the same. -/
  | equality {value : Value} : op.family = .equality → Ends op left right none (.ok value)
  | clash : op.family ≠ .equality →
      Ends op left right none (.error (.typeMismatch (.binary op left.type right.type)))

/-- How a unary operator ends on a value, by what the table has for its type. -/
inductive UnaryOp.Ends (op : UnaryOp) (operand : Value) :
    Option Ty → Except RuntimeErrorKind Value → Prop
  | value {ty : Ty} {value : Value} : value.type = ty → Ends op operand (some ty) (.ok value)
  /-- The least word has no opposite. -/
  | overflow {ty : Ty} {n : Int64} : op = .neg → operand = .int n → n.toInt = -2 ^ 63 →
      Ends op operand (some ty) (.error (.integerOverflow "negation"))
  | clash : Ends op operand none (.error (.typeMismatch (.unary op operand.type)))

/-- The pairs of values that operators tell apart. -/
inductive Operands : Value → Value → Prop
  | ints (a b : Int64) : Operands (.int a) (.int b)
  | floats {left right : Value} : left.type.promote? right.type = some .float → Operands left right
  | strs (a b : String) : Operands (.str a) (.str b)
  | others {left right : Value} : left.type.promote? right.type = none →
      ¬ (left.type = .str ∧ right.type = .str) → Operands left right

theorem Operands.all (left right : Value) : Operands left right := by
  cases left <;> cases right <;> first
    | exact .ints ..
    | exact .floats rfl
    | exact .strs ..
    | exact .others rfl (by simp [Value.type])

theorem floatBinary?_type (op : BinaryOp) (x y : Float) :
    (floatBinary? op x y).map Value.type = op.resultType? .float .float := by
  cases op <;> rfl

theorem strBinary?_type (op : BinaryOp) (a b : String) :
    (strBinary? op a b).map Value.type = op.resultType? .str .str := by
  cases op <;> rfl

namespace BinaryOp

variable {op : BinaryOp} {left right : Value}

section Entries

variable {leftType rightType : Ty}

/-- One float among two numbers counts as much as two. -/
theorem resultType?_floats (promoted : leftType.promote? rightType = some .float) :
    op.resultType? leftType rightType = op.resultType? .float .float := by
  cases leftType <;> cases rightType <;> cases promoted <;> cases op <;> rfl

/-- The table has comparisons by equality for all that can be compared by size. -/
theorem family_of_resultType?_none
    (comparable : (leftType.promote? rightType).isSome ∨ (leftType = .str ∧ rightType = .str))
    (none : op.resultType? leftType rightType = none) : op.family ≠ .equality := by
  intro equality
  simp only [resultType?, equality, if_pos comparable, reduceCtorEq] at none

theorem resultType?_others (promoted : leftType.promote? rightType = none)
    (strs : ¬ (leftType = .str ∧ rightType = .str)) : op.resultType? leftType rightType = none := by
  have ints : ¬ (leftType = .int ∧ rightType = .int) := by
    rintro ⟨rfl, rfl⟩
    cases promoted
  have comparable :
      ¬ ((leftType.promote? rightType).isSome ∨ (leftType = .str ∧ rightType = .str)) := by
    rw [promoted]
    rintro (found | both)
    · cases found
    · exact strs both
  unfold resultType?
  cases op.family with
  | logical => exact if_neg ints
  | equality | relational => exact if_neg comparable
  | arithmetic => exact promoted

end Entries

/-- What an operator finds, or that it has no result for the operands. -/
def orClash (op : BinaryOp) (left right : Value) : Option Value → Except RuntimeErrorKind Value
  | some found => .ok found
  | none => .error (.typeMismatch (.binary op left.type right.type))

theorem eval_floats (promoted : left.type.promote? right.type = some .float) :
    ∃ x y, left.equals right = nearlyEqual x y ∧
      ∀ op : BinaryOp, op.eval left right = op.orClash left right (floatBinary? op x y) := by
  match left, right, promoted with
  | .int a, .float y, _ => exact ⟨a.toFloat, y, rfl, fun _ => rfl⟩
  | .float x, .int b, _ => exact ⟨x, b.toFloat, rfl, fun _ => rfl⟩
  | .float x, .float y, _ => exact ⟨x, y, rfl, fun _ => rfl⟩

theorem eval_equal (left right : Value) :
    equal.eval left right = .ok (.ofBool (left.equals right)) := by
  unfold eval
  split <;> rfl

theorem eval_notEqual (left right : Value) :
    notEqual.eval left right = .ok (.ofBool !(left.equals right)) := by
  unfold eval
  split <;> rfl

theorem eval_others (promoted : left.type.promote? right.type = none)
    (strs : ¬ (left.type = .str ∧ right.type = .str)) (family : op.family ≠ .equality) :
    op.eval left right = .error (.typeMismatch (.binary op left.type right.type)) := by
  unfold eval
  split
  · cases promoted
  · cases promoted
  · cases promoted
  · cases promoted
  · exact absurd ⟨rfl, rfl⟩ strs
  · split
    · exact absurd rfl family
    · exact absurd rfl family
    · rfl

/-- The table has entries just for the operators with a result. -/
theorem Ends.of_option {result : Option Value} {leftType rightType : Ty}
    (comparable : (leftType.promote? rightType).isSome ∨ (leftType = .str ∧ rightType = .str))
    (types : result.map Value.type = op.resultType? leftType rightType) :
    op.Ends left right (op.resultType? leftType rightType) (op.orClash left right result) := by
  cases result with
  | some found =>
    rw [← types]
    exact .value rfl
  | none =>
    have equality := family_of_resultType?_none comparable types.symm
    rw [← types]
    exact .clash equality

theorem Ends.of_computes {a b : Int64} {result : Except RuntimeErrorKind Value}
    (arithmetic : op.family = .arithmetic)
    (computes : Computes (fun found => found.type = .int) result) :
    op.Ends (.int a) (.int b) (some .int) result := by
  cases computes with
  | value type => exact .value type
  | error kind => exact .arithmetic rfl rfl arithmetic kind

theorem intBinary_ends (op : BinaryOp) (a b : Int64) :
    op.Ends (.int a) (.int b) (op.resultType? .int .int) (intBinary op a b) := by
  cases op with
  | add | sub | mul | div | mod | pow => exact .of_computes rfl (intBinary_computes _ a b)
  | equal | notEqual | less | lessEqual | greater | greaterEqual | and | or => exact .value rfl

theorem eval_ends (op : BinaryOp) (left right : Value) :
    op.Ends left right (op.resultType? left.type right.type) (op.eval left right) := by
  cases Operands.all left right with
  | ints a b => exact intBinary_ends op a b
  | floats promoted =>
    obtain ⟨x, y, -, eval⟩ := eval_floats promoted
    rw [resultType?_floats promoted, eval]
    exact .of_option (.inl rfl) (floatBinary?_type op x y)
  | strs a b => exact .of_option (.inr ⟨rfl, rfl⟩) (strBinary?_type op a b)
  | others promoted strs =>
    rw [resultType?_others promoted strs]
    by_cases family : op.family = .equality
    · have told : op = .equal ∨ op = .notEqual := by
        cases op <;> first
          | exact .inl rfl
          | exact .inr rfl
          | cases family
      rcases told with rfl | rfl
      · rw [eval_equal]
        exact .equality rfl
      · rw [eval_notEqual]
        exact .equality rfl
    · rw [eval_others promoted strs family]
      exact .clash family

/-- With a float about, a comparison that allows equality is the strict one or equality. -/
theorem eval_comparisons (promoted : left.type.promote? right.type = some .float) :
    ∃ less greater, BinaryOp.less.eval left right = .ok (.ofBool less) ∧
      BinaryOp.greater.eval left right = .ok (.ofBool greater) ∧
      BinaryOp.lessEqual.eval left right = .ok (.ofBool (less || left.equals right)) ∧
      BinaryOp.greaterEqual.eval left right = .ok (.ofBool (greater || left.equals right)) := by
  obtain ⟨x, y, equals, eval⟩ := eval_floats promoted
  refine ⟨x < y, y < x, eval .less, eval .greater, ?_, ?_⟩
  · rw [equals, eval]
    rfl
  · rw [equals, eval]
    rfl

end BinaryOp

theorem UnaryOp.neg_ends (n : Int64) :
    UnaryOp.neg.Ends (.int n) (some .int) (UnaryOp.neg.eval (.int n)) := by
  change UnaryOp.neg.Ends (.int n) _ ((checkedInt "negation" (-n.toInt)).map .int)
  unfold checkedInt
  cases opposite : int64? (-n.toInt) with
  | some found => exact .value rfl
  | none =>
    have large := int64?_eq_none.mp opposite
    have word := fitsWord_toInt n
    unfold FitsWord at large word
    exact .overflow rfl rfl (by omega)

theorem UnaryOp.eval_ends (op : UnaryOp) (operand : Value) :
    op.Ends operand (op.resultType? operand.type) (op.eval operand) := by
  match op, operand with
  | .neg, .int n => exact neg_ends n
  | .neg, .float _ | .plus, .int _ | .plus, .float _ | .not, .int _ => exact .value rfl
  | .not, .float _ | .neg, .str _ | .neg, .void | .neg, .nil | .plus, .str _ | .plus, .void
  | .plus, .nil | .not, .str _ | .not, .void | .not, .nil => exact .clash

/-- Every operator ends on all values as the table of types says, and any two values are equal or not.
With a float among two numbers, a comparison that allows equality is the strict one or equality. -/
theorem operators_follow_type_table (left right : Value) :
    (∀ op : BinaryOp, op.Ends left right (op.resultType? left.type right.type) (op.eval left right)) ∧
    BinaryOp.equal.eval left right = .ok (.ofBool (left.equals right)) ∧
    BinaryOp.notEqual.eval left right = .ok (.ofBool !(left.equals right)) ∧
    (left.type.promote? right.type = some .float → ∃ less greater,
      BinaryOp.less.eval left right = .ok (.ofBool less) ∧
      BinaryOp.greater.eval left right = .ok (.ofBool greater) ∧
      BinaryOp.lessEqual.eval left right = .ok (.ofBool (less || left.equals right)) ∧
      BinaryOp.greaterEqual.eval left right = .ok (.ofBool (greater || left.equals right))) ∧
    ∀ op : UnaryOp, op.Ends left (op.resultType? left.type) (op.eval left) :=
  ⟨fun op => op.eval_ends left right, BinaryOp.eval_equal left right, BinaryOp.eval_notEqual left right,
    BinaryOp.eval_comparisons, fun op => op.eval_ends left⟩

theorem mixed_operands_follow_type_table :
    Ty.promote? .int .float = some .float ∧
      ∃ less, BinaryOp.less.eval (.int 1) (.float 1.5) = .ok (.ofBool less) ∧
        BinaryOp.lessEqual.eval (.int 1) (.float 1.5) =
          .ok (.ofBool (less || (Value.int 1).equals (.float 1.5))) := by
  obtain ⟨less, -, strictly, -, upTo, -⟩ :=
    (operators_follow_type_table (.int 1) (.float 1.5)).2.2.2.1 rfl
  exact ⟨rfl, less, strictly, upTo⟩

end Lu
