import Lu.Parse.Grammar
import Lu.Proofs.Tree.Blank

namespace Lu

/-!
The parser leaves every slot of its trees empty.
-/

namespace Parser

variable {α β : Type} {post : β → Prop}

/-- What the parser reads, wherever it starts, has the property. -/
def Yields (p : Parser β) (post : β → Prop) : Prop :=
  ∀ state value after, p state = .done value after → post value

theorem Yields.pure {value : β} (done : post value) : (Pure.pure value : Parser β).Yields post := by
  intro state found after run
  cases run
  exact done

theorem Yields.bind {mid : α → Prop} {p : Parser α} {next : α → Parser β} (first : p.Yields mid)
    (rest : ∀ value, mid value → (next value).Yields post) : (p >>= next).Yields post := by
  intro state found after run
  rw [bind_apply] at run
  cases ran : p state with
  | done value between =>
    rw [ran] at run
    exact rest value (first state value between ran) between found after run
  | failed | outOfFuel =>
    rw [ran] at run
    cases run

theorem Yields.skip {p : Parser α} {next : α → Parser β} (rest : ∀ value, (next value).Yields post) :
    (p >>= next).Yields post :=
  (show p.Yields fun _ => True from fun _ _ _ _ => trivial).bind fun value _ => rest value

theorem Yields.ite {condition : Prop} [Decidable condition] {p q : Parser β}
    (hit : p.Yields post) (miss : q.Yields post) :
    (if condition then p else q).Yields post := by
  split
  · exact hit
  · exact miss

/-- One of two parsers, and then the same in both cases. -/
theorem Yields.ite_bind {condition : Prop} [Decidable condition] {mid : α → Prop} {p q : Parser α}
    {next : α → Parser β} (hit : p.Yields mid) (miss : q.Yields mid)
    (rest : ∀ value, mid value → (next value).Yields post) :
    (if condition then p >>= next else q >>= next).Yields post :=
  .ite (hit.bind rest) (miss.bind rest)

theorem Yields.fail {kind : ParseErrorKind} {span : Span} : (fail kind span : Parser β).Yields post :=
  nofun

theorem Yields.outOfFuel : (outOfFuel : Parser β).Yields post := nofun

/-- The expressions of every rule are blank, at the given fuel. -/
structure BlankExprsAt (fuel : Nat) : Prop where
  expression : (expression fuel).Yields fun e => e.blank = e
  operators : ∀ levels, (operators fuel levels).Yields fun e => e.blank = e
  operatorTail : ∀ level tighter left, left.blank = left →
    (operatorTail fuel level tighter left).Yields fun e => e.blank = e
  power : (power fuel).Yields fun e => e.blank = e
  unary : (unary fuel).Yields fun e => e.blank = e
  primary : (primary fuel).Yields fun e => e.blank = e
  nameOrCall : (nameOrCall fuel).Yields fun e => e.blank = e
  arguments : ∀ before, before.map Expr.blank = before →
    (arguments fuel before).Yields fun args => args.map Expr.blank = args

theorem blankExprsAt : ∀ fuel, BlankExprsAt fuel
  | 0 => by
    constructor <;> intros <;> exact .outOfFuel
  | fuel + 1 => by
    have ih := blankExprsAt fuel
    constructor
    case expression =>
      unfold expression
      refine (ih.operators _).bind fun left blank => .skip fun assigns => .ite ?_ (.pure blank)
      exact ih.expression.bind fun right blank' => .pure (by
        simp [Expr.ofAssign, Expr.blank, ExprNote.blank, blank, blank'])
    case operators =>
      intro levels
      cases levels with
      | nil => exact ih.power
      | cons level tighter =>
        unfold operators
        exact (ih.operators _).bind fun left blank => ih.operatorTail _ _ _ blank
    case operatorTail =>
      intro level tighter left blank
      unfold operatorTail
      refine .skip fun cursor => ?_
      split
      · exact .pure blank
      · refine .skip fun _ => (ih.operators _).bind fun right blank' => ih.operatorTail _ _ _ ?_
        simp [Expr.ofBinary, Expr.blank, ExprNote.blank, blank, blank']
    case power =>
      unfold power
      refine ih.unary.bind fun base blank => .skip fun raised => .ite ?_ (.pure blank)
      exact ih.power.bind fun exponent blank' => .pure (by
        simp [Expr.ofBinary, Expr.blank, ExprNote.blank, blank, blank'])
    case unary =>
      unfold unary
      refine .skip fun _ => .skip fun _ => ?_
      split
      · exact .skip fun _ => ih.unary.bind fun operand blank => .pure (by
          simp [Expr.blank, ExprNote.blank, blank])
      · exact ih.primary
    case primary =>
      unfold primary
      refine .skip fun cursor => ?_
      dsimp only
      split
      · exact .skip fun _ => .pure rfl
      · split
        · exact ih.nameOrCall
        · refine .skip fun _ => ih.expression.bind fun inner blank => .skip fun close => .pure ?_
          rw [Expr.blank_setSpan, blank]
        · exact .fail
    case nameOrCall =>
      unfold nameOrCall
      refine .skip fun ⟨name, nameSpan⟩ => .skip fun called => .ite ?_ (.pure rfl)
      refine .skip fun cursor => ?_
      have noArgs : (Pure.pure [] : Parser (List Expr)).Yields fun args => args.map Expr.blank = args :=
        .pure rfl
      refine noArgs.ite_bind (ih.arguments [] rfl) fun args blank => .skip fun close => .pure ?_
      simp [Expr.blank, ExprNote.blank, blank, Attribute.unset]
    case arguments =>
      intro before blank
      unfold arguments
      refine ih.expression.bind fun arg blank' => .skip fun more => ?_
      have all : (arg :: before).map Expr.blank = arg :: before := by simp [blank, blank']
      refine .ite (ih.arguments _ all) (.pure ?_)
      rw [List.map_reverse, all]

theorem varDecl_blank (fuel : Nat) : (varDecl fuel).Yields fun decl => decl.blank = decl := by
  unfold varDecl
  refine .skip fun ⟨name, nameSpan⟩ => .skip fun typeName => .skip fun cursor => .skip fun _ => ?_
  refine .ite ((blankExprsAt fuel).expression.bind fun init blank => .pure ?_) .fail
  simp [VarDecl.blank, blank, Attribute.unset]

theorem condition_blank (fuel : Nat) : (condition fuel).Yields fun e => e.blank = e := by
  unfold condition
  exact .skip fun _ => (blankExprsAt fuel).expression.bind fun e blank => .skip fun _ => .pure blank

theorem parameters_blank : ∀ (fuel : Nat) (before : List Param), before.map Param.blank = before →
    (parameters fuel before).Yields fun params => params.map Param.blank = params
  | 0, _, _ => .outOfFuel
  | fuel + 1, before, blank => by
    unfold parameters
    refine .skip fun ⟨name, span⟩ => .skip fun _ => .skip fun typeName => .skip fun more => ?_
    have all : (({ name, span, typeName } : Param) :: before).map Param.blank =
        ({ name, span, typeName } : Param) :: before := by
      simp [blank, Param.blank, Attribute.unset]
    refine .ite (parameters_blank fuel _ all) (.pure ?_)
    rw [List.map_reverse, all]

theorem forInit_blank (fuel : Nat) : (forInit fuel).Yields fun init => init.blank = init := by
  unfold forInit
  refine .skip fun _ => .ite ?_ ?_
  · exact (varDecl_blank fuel).bind fun decl blank => .pure (congrArg ForInit.letVar blank)
  · refine (blankExprsAt fuel).expression.bind fun e blank => .ite ?_ .fail
    exact .pure (congrArg ForInit.assign blank)

/-- The statements of every rule are blank, at the given fuel. -/
structure BlankStmtsAt (fuel : Nat) : Prop where
  statement : (statement fuel).Yields fun s => s.blank = s
  block : (block fuel).Yields fun body => body.blank = body
  statements : ∀ before, before.map Stmt.blank = before →
    (statements fuel before).Yields fun found => found.map Stmt.blank = found
  function : (function fuel).Yields fun decl => decl.blank = decl
  elseBranch : (elseBranch fuel).Yields fun body => body.map Block.blank = body

variable {fuel : Nat}

theorem BlankStmtsAt.statement_succ (ih : BlankStmtsAt fuel) :
    (Parser.statement (fuel + 1)).Yields fun s => s.blank = s := by
  unfold Parser.statement
  refine .skip fun _ => .skip fun _ => ?_
  dsimp only
  split
  · refine .skip fun _ => (varDecl_blank fuel).bind fun decl blank => ?_
    exact .skip fun _ => .skip fun _ => .pure (by rw [Stmt.blank, blank])
  · exact ih.function.bind fun decl blank => .skip fun _ => .pure (by rw [Stmt.blank, blank])
  · refine .skip fun _ => (condition_blank fuel).bind fun test blank => ?_
    refine ih.block.bind fun thenBranch blank' => ih.elseBranch.bind fun elseBranch blank'' => ?_
    exact .skip fun _ => .pure (by rw [Stmt.blank_ifElse, blank, blank', blank''])
  · refine .skip fun _ => (condition_blank fuel).bind fun test blank => ?_
    exact ih.block.bind fun body blank' => .skip fun _ => .pure (by rw [Stmt.blank, blank, blank'])
  · refine .skip fun _ => .skip fun _ => (forInit_blank fuel).bind fun init blank => ?_
    refine .skip fun _ => (blankExprsAt fuel).expression.bind fun test blank' => .skip fun _ => ?_
    refine (blankExprsAt fuel).expression.bind fun step blank'' => .skip fun _ => ?_
    refine ih.block.bind fun body blank''' => .skip fun _ => .pure ?_
    rw [Stmt.blank, blank, blank', blank'', blank''']
  · exact .skip fun _ => .skip fun _ => .skip fun _ => .pure rfl
  · exact .skip fun _ => .skip fun _ => .skip fun _ => .pure rfl
  · refine .skip fun _ => .skip fun _ => ?_
    have noValue : (Pure.pure none : Parser (Option Expr)).Yields fun value =>
        value.map Expr.blank = value := .pure rfl
    have oneValue : (some <$> expression fuel).Yields fun value => value.map Expr.blank = value :=
      (blankExprsAt fuel).expression.bind fun e blank => .pure (congrArg some blank)
    refine noValue.ite_bind oneValue fun value blank => .skip fun _ => .skip fun _ => .pure ?_
    exact congrArg (Stmt.returnValue _) blank
  · exact ih.block.bind fun body blank => .skip fun _ => .pure (by rw [Stmt.blank, blank])
  · refine (blankExprsAt fuel).expression.bind fun e blank => ?_
    exact .skip fun _ => .skip fun _ => .pure (by rw [Stmt.blank, blank])

theorem BlankStmtsAt.function_succ (ih : BlankStmtsAt fuel) :
    (Parser.function (fuel + 1)).Yields fun decl => decl.blank = decl := by
  unfold Parser.function
  refine .skip fun _ => .skip fun ⟨name, nameSpan⟩ => .skip fun _ => .skip fun _ => ?_
  have noParams : (Pure.pure [] : Parser (List Param)).Yields fun params =>
      params.map Param.blank = params := .pure rfl
  refine noParams.ite_bind (parameters_blank fuel [] rfl) fun params blank => ?_
  refine .skip fun _ => .skip fun resultName => ih.block.bind fun body blank' => ?_
  exact .skip fun id => .pure (by rw [FunctionDecl.blank, blank, blank'])

theorem blankStmtsAt : ∀ fuel, BlankStmtsAt fuel
  | 0 => by
    constructor <;> intros <;> exact .outOfFuel
  | fuel + 1 => by
    have ih := blankStmtsAt fuel
    refine ⟨ih.statement_succ, ?_, ?_, ih.function_succ, ?_⟩
    · unfold block
      refine .skip fun _ => (ih.statements [] rfl).bind fun statements blank => .skip fun _ => ?_
      exact .pure (by rw [Block.blank, Stmt.allBlank_eq_map, blank])
    · intro before blank
      unfold statements
      refine .skip fun _ => .ite (.pure (by rw [List.map_reverse, blank])) (.skip fun _ => ?_)
      refine .ite (.skip fun _ => .fail) (ih.statement.bind fun s blank' => ih.statements _ ?_)
      rw [List.map_cons, blank, blank']
    · unfold elseBranch
      refine .skip fun _ => .ite (.skip fun _ => .ite ?_ ?_) (.pure rfl)
      · refine ih.statement.bind fun s blank => .pure ?_
        simp [Block.blank, blank]
      · exact ih.block.bind fun body blank => .pure (congrArg some blank)

theorem programStatements_blank : ∀ (fuel : Nat) (before : List Stmt),
    before.map Stmt.blank = before →
    (programStatements fuel before).Yields fun found => found.map Stmt.blank = found
  | 0, _, _ => .outOfFuel
  | fuel + 1, before, blank => by
    unfold programStatements
    refine .skip fun _ => .ite (.pure (by rw [List.map_reverse, blank])) ?_
    refine (blankStmtsAt fuel).statement.bind fun s blank' => programStatements_blank fuel _ ?_
    rw [List.map_cons, blank, blank']

theorem program_blank (fuel : Nat) : (program fuel).Yields fun p => p.blank = p := by
  unfold program
  refine .skip fun _ => (programStatements_blank fuel [] rfl).bind fun statements blank => ?_
  exact .skip fun _ => .pure (by rw [Program.blank, blank])

end Parser

/-- A program that is read has no slot filled. -/
theorem parse?_blank {tokens : List Token} {program : Program}
    (parsed : parse? tokens = some (.ok program)) : program.blank = program := by
  unfold parse? at parsed
  generalize ran : Parser.program _ _ = result at parsed
  cases result with
  | done read after =>
    cases parsed
    exact Parser.program_blank _ _ _ _ ran
  | failed | outOfFuel => cases parsed

end Lu
