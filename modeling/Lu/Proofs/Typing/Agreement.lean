import Lu.Proofs.Typing.Elaboration

namespace Lu

/-!
What the check of agreement accepts at each place, said of the types there.
-/

theorem Ty.isValue_iff {ty : Ty} : ty.IsValue ↔ ty ≠ .void ∧ ty ≠ .nil := by
  cases ty <;> simp [IsValue]

theorem Ty.accepts_iff_isValue {expected found : Ty} :
    expected.accepts found = true ↔ expected = found ∧ found.IsValue := by
  rw [accepts_iff, isValue_iff]

theorem NativeParam.accepts_iff {param : NativeParam} {found : Ty} :
    param.accepts found = true ↔ found ∈ param.takes ∧ found.IsValue := by
  simp only [accepts, List.any_eq_true, Ty.accepts_iff_isValue]
  exact ⟨fun ⟨_, member, same, isValue⟩ => ⟨same ▸ member, isValue⟩,
    fun ⟨member, isValue⟩ => ⟨found, member, rfl, isValue⟩⟩

/-- A condition is demanded on the way, or else there is an error. -/
theorem Check.demand_eq_ok {α : Type} {condition : Prop} [Decidable condition] {check : Check α}
    {kind : CheckErrorKind} {span : Span} {value : α} :
    (if condition then check else Check.fail kind span) = .ok value ↔
      condition ∧ check = .ok value := by
  by_cases holds : condition <;> simp [holds]

theorem Check.demanded {condition : Prop} [Decidable condition] {kind : CheckErrorKind}
    {span : Span} :
    (if condition then return else Check.fail kind span : Check Unit) = .ok () ↔ condition :=
  Check.demand_eq_ok.trans (and_iff_left rfl)

/-- The type in a slot is read before what follows is done. -/
theorem Check.get_bind {α β : Type} {slot : String} {filled : Attribute slot α} {value : α}
    (stored : filled.value? = some value) (next : α → Check β) :
    (Check.lift filled.get >>= next) = next value := by
  rw [Attribute.get_eq_ok.mpr stored]
  rfl

theorem Expr.expectType_iff {place : TypePlace} {expected : Ty} {e : Expr} :
    e.expectType place expected = .ok () ↔ e.type.value? = some expected ∧ expected.IsValue := by
  simp only [expectType, bind_eq_ok, Check.lift_eq_ok, Attribute.get_eq_ok, Check.demanded,
    Ty.accepts_iff_isValue]
  constructor
  · rintro ⟨found, known, rfl, isValue⟩
    exact ⟨known, isValue⟩
  · rintro ⟨known, isValue⟩
    exact ⟨expected, known, rfl, isValue⟩

/-- The arguments of a function of the program, with their types. -/
theorem checkUserArguments_iff {function : String} {args : List Expr} {argTypes : List Ty}
    (known : List.Forall₂ (fun arg ty => arg.type.value? = some ty) args argTypes) (index : Nat)
    {params : List VariableSymbol} (arity : args.length = params.length) :
    Expr.checkUserArguments function index args params = .ok () ↔
      List.Forall₂ (fun ty param => param.type.value? = some ty ∧ ty.IsValue) argTypes params := by
  induction known generalizing index params with
  | nil =>
    cases List.length_eq_zero_iff.mp arity.symm
    simp [Expr.checkUserArguments, pure, Except.pure]
  | @cons arg ty rest restTypes atArg _ ih =>
    cases params with
    | nil => cases arity
    | cons param params =>
      have ih := ih (index + 1) (Nat.succ.inj arity)
      rw [List.forall₂_cons, ← ih, Expr.checkUserArguments, Check.get_bind atArg]
      simp only [bind_eq_ok, Check.lift_eq_ok, Attribute.get_eq_ok, Check.demand_eq_ok,
        Ty.accepts_iff_isValue]
      constructor
      · rintro ⟨expected, stored, ⟨rfl, isValue⟩, later⟩
        exact ⟨⟨stored, isValue⟩, later⟩
      · rintro ⟨⟨stored, isValue⟩, later⟩
        exact ⟨ty, stored, ⟨rfl, isValue⟩, later⟩

theorem checkNativeArguments_iff {function : String} {args : List Expr} {argTypes : List Ty}
    (known : List.Forall₂ (fun arg ty => arg.type.value? = some ty) args argTypes) (index : Nat)
    {params : List NativeParam} (arity : args.length = params.length) :
    Expr.checkNativeArguments function index args params = .ok () ↔
      List.Forall₂ (fun ty param => ty ∈ param.takes ∧ ty.IsValue) argTypes params := by
  induction known generalizing index params with
  | nil =>
    cases List.length_eq_zero_iff.mp arity.symm
    simp [Expr.checkNativeArguments, pure, Except.pure]
  | @cons arg ty rest restTypes atArg _ ih =>
    cases params with
    | nil => cases arity
    | cons param params =>
      have ih := ih (index + 1) (Nat.succ.inj arity)
      rw [List.forall₂_cons, ← ih, Expr.checkNativeArguments, Check.get_bind atArg]
      simp only [Check.demand_eq_ok, NativeParam.accepts_iff]

/-- A variable gets a value, of the annotated type if there is one. -/
theorem VarDecl.checkTypes_iff {decl : VarDecl} {ty : Ty} (known : decl.init.type.value? = some ty)
    (meaning : decl.declared.value? = decl.typeName.map TypeName.meaning) :
    decl.checkTypes = .ok () ↔ decl.init.checkTypes = .ok () ∧ ty.IsValue ∧
      ∀ typeName, decl.typeName = some typeName → typeName.meaning = ty := by
  unfold checkTypes
  rw [Check.get_bind known, meaning, bind_eq_ok]
  refine ⟨fun ⟨_, atInit, run⟩ => ⟨atInit, ?_⟩,
    fun ⟨atInit, isValue, annotated⟩ => ⟨(), atInit, ?_⟩⟩
  · split at run
    · cases run
    · rename_i notVoid
      cases written : decl.typeName with
      | none =>
        rw [written] at run
        have run : (if ty = .nil then _ else return : Check Unit) = .ok () := run
        split at run
        · cases run
        · exact ⟨Ty.isValue_iff.mpr ⟨notVoid, ‹_›⟩, nofun⟩
      | some typeName =>
        rw [written] at run
        obtain ⟨same, isValue⟩ := Ty.accepts_iff_isValue.mp (Check.demanded.mp run)
        exact ⟨isValue, fun other again => Option.some.inj again ▸ same⟩
  · obtain ⟨notVoid, notNil⟩ := Ty.isValue_iff.mp isValue
    rw [if_neg notVoid]
    cases written : decl.typeName with
    | none => exact if_neg notNil
    | some typeName =>
      exact Check.demanded.mpr (Ty.accepts_iff_isValue.mpr ⟨annotated typeName written, isValue⟩)

/-- Statements are checked inside a function, whose result they return, or outside of any. -/
def resultAround (around : Option EnclosingFunction) : Option Ty :=
  around.map EnclosingFunction.result

theorem checkReturned_nothing {function : EnclosingFunction} {span : Span} :
    checkReturned (some function) span none = .ok () ↔ function.result = .void := by
  obtain ⟨name, result⟩ := function
  cases result <;> simp [checkReturned, pure, Except.pure]

/-- What is returned is of the result type, be it a value or nothing. -/
theorem checkReturned_iff {function : EnclosingFunction} {span : Span} {value : Expr} {ty : Ty}
    (known : value.type.value? = some ty) :
    checkReturned (some function) span (some value) = .ok () ↔
      ty = function.result ∧ (ty = .void ∨ ty.IsValue) := by
  obtain ⟨name, result⟩ := function
  cases result with
  | void =>
    have run : checkReturned (some ⟨name, .void⟩) span (some value) =
        if ty = .void then return else Check.fail (.unwantedResult name ty) value.span :=
      Check.get_bind known _
    rw [run, Check.demanded]
    exact ⟨fun void => ⟨void, .inl void⟩, fun both => both.1⟩
  | int | float | str | nil =>
    refine Expr.expectType_iff.trans ?_
    rw [known, Option.some.injEq]
    constructor
    · rintro ⟨rfl, isValue⟩
      exact ⟨rfl, .inr isValue⟩
    · rintro ⟨rfl, void | isValue⟩
      · cases void
      · exact ⟨rfl, isValue⟩

/-- A body ends with a `return`, one of a value unless there is no result. -/
theorem checkFinalReturn_iff {function : EnclosingFunction} {body : Block} :
    checkFinalReturn function body = .ok () ↔ ∃ span value,
      body.statements.getLast? = some (.returnValue span value) ∧
        (value = none → function.result = .void) := by
  constructor
  · intro run
    unfold checkFinalReturn at run
    split at run
    · rename_i last
      exact ⟨_, _, last, nofun⟩
    · rename_i last result
      exact ⟨_, _, last, fun _ => result⟩
    · cases run
  · rintro ⟨span, value, last, nothing⟩
    unfold checkFinalReturn
    rw [last]
    cases value with
    | none =>
      rw [nothing rfl]
      rfl
    | some e => rfl

end Lu
