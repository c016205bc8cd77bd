import Lu.Parse.Grammar

namespace Lu

/-!
More fuel changes nothing but that it lasts longer.
-/

namespace Parser

variable {α β : Type}

/-- The second parser does what the first one does, unless that runs out of fuel. -/
def Refines (p q : Parser α) : Prop := ∀ state, p state = .outOfFuel ∨ p state = q state

theorem Refines.refl (p : Parser α) : Refines p p := fun _ => .inr rfl

theorem Refines.outOfFuel {q : Parser α} : Refines outOfFuel q := fun _ => .inl rfl

theorem Refines.trans {p q r : Parser α} (first : Refines p q) (second : Refines q r) :
    Refines p r := by
  intro state
  rcases first state with same | same
  · exact .inl same
  · rw [same]
    exact second state

theorem Refines.bind {p q : Parser α} {next next' : α → Parser β} (first : Refines p q)
    (later : ∀ value, Refines (next value) (next' value)) : Refines (p >>= next) (q >>= next') := by
  intro state
  rw [bind_apply, bind_apply]
  rcases first state with same | same
  · exact .inl (by rw [same])
  · rw [← same]
    cases p state with
    | done value after => exact later value after
    | failed | outOfFuel => exact .inr rfl

/-- A parser that goes on in the same way with what it has got. -/
theorem Refines.after {p : Parser α} {next next' : α → Parser β}
    (later : ∀ value, Refines (next value) (next' value)) : Refines (p >>= next) (p >>= next') :=
  .bind (.refl p) later

theorem Refines.map {p q : Parser α} {f : α → β} (first : Refines p q) :
    Refines (f <$> p) (f <$> q) :=
  .bind first fun _ => .refl _

theorem Refines.ite {condition : Prop} [Decidable condition] {p q p' q' : Parser α}
    (yes : Refines p p') (no : Refines q q') :
    Refines (if condition then p else q) (if condition then p' else q') := by
  split
  · exact yes
  · exact no

/-- One more unit of fuel changes none of the parsers of expressions. -/
structure ExprsRefineAt (fuel : Nat) : Prop where
  expression : Refines (expression fuel) (expression (fuel + 1))
  operators {levels} : Refines (operators fuel levels) (operators (fuel + 1) levels)
  operatorTail {level tighter left} :
    Refines (operatorTail fuel level tighter left) (operatorTail (fuel + 1) level tighter left)
  power : Refines (power fuel) (power (fuel + 1))
  unary : Refines (unary fuel) (unary (fuel + 1))
  primary : Refines (primary fuel) (primary (fuel + 1))
  nameOrCall : Refines (nameOrCall fuel) (nameOrCall (fuel + 1))
  arguments {before} : Refines (arguments fuel before) (arguments (fuel + 1) before)

section Exprs

variable {fuel : Nat}

theorem ExprsRefineAt.expression_succ (ih : ExprsRefineAt fuel) :
    Refines (Parser.expression (fuel + 1)) (Parser.expression (fuel + 2)) := by
  unfold Parser.expression
  refine .bind ih.operators fun left => .after fun hit => .ite ?_ (.refl _)
  exact .bind ih.expression fun right => .refl _

theorem ExprsRefineAt.operators_succ (ih : ExprsRefineAt fuel)
    {levels : List (List (Mark × BinaryOp))} :
    Refines (Parser.operators (fuel + 1) levels) (Parser.operators (fuel + 2) levels) := by
  unfold Parser.operators
  cases levels with
  | nil => exact ih.power
  | cons => exact .bind ih.operators fun left => ih.operatorTail

theorem ExprsRefineAt.operatorTail_succ (ih : ExprsRefineAt fuel) {level : List (Mark × BinaryOp)}
    {tighter : List (List (Mark × BinaryOp))} {left : Expr} :
    Refines (Parser.operatorTail (fuel + 1) level tighter left)
      (Parser.operatorTail (fuel + 2) level tighter left) := by
  unfold Parser.operatorTail
  refine .after fun cursor => ?_
  cases operatorIn? level cursor.currentKind with
  | none => exact .refl _
  | some op => exact .after fun _ => .bind ih.operators fun right => ih.operatorTail

theorem ExprsRefineAt.power_succ (ih : ExprsRefineAt fuel) :
    Refines (Parser.power (fuel + 1)) (Parser.power (fuel + 2)) := by
  unfold Parser.power
  refine .bind ih.unary fun base => .after fun hit => .ite ?_ (.refl _)
  exact .bind ih.power fun exponent => .refl _

theorem ExprsRefineAt.unary_succ (ih : ExprsRefineAt fuel) :
    Refines (Parser.unary (fuel + 1)) (Parser.unary (fuel + 2)) := by
  unfold Parser.unary
  refine .after fun start => .after fun cursor => ?_
  cases prefixOp? cursor.currentKind with
  | none => exact ih.primary
  | some op => exact .after fun _ => .bind ih.unary fun operand => .refl _

theorem ExprsRefineAt.primary_succ (ih : ExprsRefineAt fuel) :
    Refines (Parser.primary (fuel + 1)) (Parser.primary (fuel + 2)) := by
  unfold Parser.primary
  refine .after fun cursor => ?_
  dsimp only
  generalize cursor.current = token
  cases literalValue? token.kind with
  | some value => exact .refl _
  | none =>
    obtain ⟨kind, span⟩ := token
    dsimp only
    split
    · exact ih.nameOrCall
    · exact .after fun _ => .bind ih.expression fun inner => .refl _
    · exact .refl _

theorem ExprsRefineAt.nameOrCall_succ (ih : ExprsRefineAt fuel) :
    Refines (Parser.nameOrCall (fuel + 1)) (Parser.nameOrCall (fuel + 2)) := by
  unfold Parser.nameOrCall
  refine .after fun name => .after fun hit => .ite (.after fun cursor => ?_) (.refl _)
  exact .ite (.refl _) (.bind ih.arguments fun args => .refl _)

theorem ExprsRefineAt.arguments_succ (ih : ExprsRefineAt fuel) {before : List Expr} :
    Refines (Parser.arguments (fuel + 1) before) (Parser.arguments (fuel + 2) before) := by
  unfold Parser.arguments
  exact .bind ih.expression fun arg => .after fun hit => .ite ih.arguments (.refl _)

theorem exprsRefineAt : ∀ fuel, ExprsRefineAt fuel
  | 0 => by
    constructor <;> intros <;> exact Refines.outOfFuel
  | fuel + 1 => by
    have ih := exprsRefineAt fuel
    exact ⟨ih.expression_succ, ih.operators_succ, ih.operatorTail_succ, ih.power_succ, ih.unary_succ,
      ih.primary_succ, ih.nameOrCall_succ, ih.arguments_succ⟩

end Exprs

section Parts

variable {fuel : Nat}

theorem varDecl_refines : Refines (varDecl fuel) (varDecl (fuel + 1)) := by
  unfold varDecl
  refine .after fun name => .after fun typeName => .after fun cursor => .after fun hit => ?_
  exact .ite (.bind (exprsRefineAt fuel).expression fun init => .refl _) (.refl _)

theorem condition_refines : Refines (condition fuel) (condition (fuel + 1)) := by
  unfold condition
  exact .after fun _ => .bind (exprsRefineAt fuel).expression fun e => .refl _

theorem parameters_refines : ∀ (fuel : Nat) (before : List Param),
    Refines (parameters fuel before) (parameters (fuel + 1) before)
  | 0, _ => .outOfFuel
  | fuel + 1, before => by
    unfold parameters
    refine .after fun name => .after fun _ => .after fun typeName => .after fun hit => ?_
    exact .ite (parameters_refines fuel _) (.refl _)

theorem forInit_refines : Refines (forInit fuel) (forInit (fuel + 1)) := by
  unfold forInit
  refine .after fun hit => .ite (.bind varDecl_refines fun decl => .refl _) ?_
  exact .bind (exprsRefineAt fuel).expression fun e => .refl _

end Parts

/-- One more unit of fuel changes none of the parsers of statements. -/
structure StmtsRefineAt (fuel : Nat) : Prop where
  statement : Refines (statement fuel) (statement (fuel + 1))
  block : Refines (block fuel) (block (fuel + 1))
  statements {before} : Refines (statements fuel before) (statements (fuel + 1) before)
  function : Refines (function fuel) (function (fuel + 1))
  elseBranch : Refines (elseBranch fuel) (elseBranch (fuel + 1))

section Stmts

variable {fuel : Nat}

theorem StmtsRefineAt.statement_succ (ih : StmtsRefineAt fuel) :
    Refines (Parser.statement (fuel + 1)) (Parser.statement (fuel + 2)) := by
  have expression := (exprsRefineAt fuel).expression
  unfold Parser.statement
  refine .after fun start => .after fun cursor => ?_
  generalize cursor.currentKind = kind
  dsimp only
  split
  · exact .after fun _ => .bind varDecl_refines fun decl => .refl _
  · exact .bind ih.function fun decl => .refl _
  · refine .after fun _ => .bind condition_refines fun test => .bind ih.block fun thenBranch => ?_
    exact .bind ih.elseBranch fun elseBranch => .refl _
  · exact .after fun _ => .bind condition_refines fun test => .bind ih.block fun body => .refl _
  · refine .after fun _ => .after fun _ => .bind forInit_refines fun init => .after fun _ => ?_
    refine .bind expression fun test => .after fun _ => .bind expression fun step => .after fun _ => ?_
    exact .bind ih.block fun body => .refl _
  · exact .refl _
  · exact .refl _
  · exact .after fun _ => .after fun cursor => .ite (.refl _) (.bind (.map expression) fun _ => .refl _)
  · exact .bind ih.block fun body => .refl _
  · exact .bind expression fun e => .refl _

theorem StmtsRefineAt.block_succ (ih : StmtsRefineAt fuel) :
    Refines (Parser.block (fuel + 1)) (Parser.block (fuel + 2)) := by
  unfold Parser.block
  exact .after fun _ => .bind ih.statements fun statements => .refl _

theorem StmtsRefineAt.statements_succ (ih : StmtsRefineAt fuel) {before : List Stmt} :
    Refines (Parser.statements (fuel + 1) before) (Parser.statements (fuel + 2) before) := by
  unfold Parser.statements
  refine .after fun cursor => .ite (.refl _) (.after fun cursor => .ite (.refl _) ?_)
  exact .bind ih.statement fun s => ih.statements

theorem StmtsRefineAt.function_succ (ih : StmtsRefineAt fuel) :
    Refines (Parser.function (fuel + 1)) (Parser.function (fuel + 2)) := by
  unfold Parser.function
  refine .after fun start => .after fun name => .after fun _ => .after fun cursor => .ite ?_ ?_
  · refine .after fun params => .after fun _ => .after fun resultName => ?_
    exact .bind ih.block fun body => .refl _
  · refine .bind (parameters_refines fuel []) fun params => .after fun _ => .after fun resultName => ?_
    exact .bind ih.block fun body => .refl _

theorem StmtsRefineAt.elseBranch_succ (ih : StmtsRefineAt fuel) :
    Refines (Parser.elseBranch (fuel + 1)) (Parser.elseBranch (fuel + 2)) := by
  unfold Parser.elseBranch
  refine .after fun hit => .ite (.after fun cursor => .ite ?_ ?_) (.refl _)
  · exact .bind ih.statement fun nestedIf => .refl _
  · exact .bind ih.block fun body => .refl _

theorem stmtsRefineAt : ∀ fuel, StmtsRefineAt fuel
  | 0 => by
    constructor <;> intros <;> exact Refines.outOfFuel
  | fuel + 1 => by
    have ih := stmtsRefineAt fuel
    exact ⟨ih.statement_succ, ih.block_succ, ih.statements_succ, ih.function_succ,
      ih.elseBranch_succ⟩

end Stmts

theorem programStatements_refines : ∀ (fuel : Nat) (before : List Stmt),
    Refines (programStatements fuel before) (programStatements (fuel + 1) before)
  | 0, _ => .outOfFuel
  | fuel + 1, before => by
    unfold programStatements
    refine .after fun cursor => .ite (.refl _) ?_
    exact .bind (stmtsRefineAt fuel).statement fun s => programStatements_refines fuel _

theorem program_refines {fuel more : Nat} (least : fuel ≤ more) :
    Refines (program fuel) (program more) := by
  induction least with
  | refl => exact .refl _
  | step _ ih =>
    refine ih.trans ?_
    unfold program
    exact .after fun start => .bind (programStatements_refines _ []) fun statements => .refl _

/-- With two amounts of fuel that both last the answer is the same. -/
theorem program_same {fuel more : Nat} {state : ParseState}
    (lasts : program fuel state ≠ .outOfFuel) (lasts' : program more state ≠ .outOfFuel) :
    program fuel state = program more state := by
  rcases Nat.le_total fuel more with least | least
  · exact (program_refines least state).resolve_left lasts
  · exact ((program_refines least state).resolve_left lasts').symm

end Parser

end Lu
