import Lu.Parse.Grammar
import Lu.Proofs.Tree.Places

namespace Lu

/-!
Every span in a tree that is read, and that of the error if none is, comes from the spans of the tokens.
-/

/-- What holds of the empty span, and of the span that covers two if it holds of both. -/
structure Span.Closed (place : Span → Prop) : Prop where
  nowhere : place .nowhere
  merge : ∀ {first second : Span}, place first → place second → place (first.merge second)

/-- All tokens are in their places. -/
def Cursor.Placed (place : Span → Prop) (cursor : Cursor) : Prop :=
  ∀ token ∈ cursor.tokens, place token.span

namespace Cursor.Placed

variable {place : Span → Prop} {cursor : Cursor}

theorem advance (placed : cursor.Placed place) : cursor.advance.Placed place := by
  unfold Placed
  rw [tokens_advance]
  exact placed

theorem current (placed : cursor.Placed place) (nowhere : place .nowhere) :
    place cursor.current.span := by
  obtain ⟨passed, ahead⟩ := cursor
  cases ahead with
  | cons token rest => exact placed token (by simp [tokens])
  | nil =>
    cases passed with
    | cons token before => exact placed token (by simp [tokens])
    | nil => exact nowhere

theorem previous (placed : cursor.Placed place) (nowhere : place .nowhere) :
    place cursor.previousSpan := by
  obtain ⟨passed, ahead⟩ := cursor
  cases passed with
  | cons token before => exact placed token (by simp [tokens])
  | nil => exact nowhere

end Cursor.Placed

namespace Parser

/-- What is read has the property, and the tokens stay in their places; an error is in its place. -/
def Ends {α : Type} (place : Span → Prop) (post : α → Prop) : Parsed α → Prop
  | .done value after => after.cursor.Placed place ∧ post value
  | .failed e => place e.span
  | .outOfFuel => True

/-- Wherever the parser starts among tokens that are in their places. -/
def Points {α : Type} (place : Span → Prop) (post : α → Prop) (p : Parser α) : Prop :=
  ∀ state, state.cursor.Placed place → Ends place post (p state)

variable {α β : Type} {place : Span → Prop} {post : β → Prop}

namespace Points

theorem pure {value : β} (holds : post value) : Points place post (pure value) :=
  fun _ placed => ⟨placed, holds⟩

theorem bind {mid : α → Prop} {p : Parser α} {next : α → Parser β} (first : Points place mid p)
    (rest : ∀ value, mid value → Points place post (next value)) : Points place post (p >>= next) := by
  intro state placed
  have ends := first state placed
  rw [bind_apply]
  generalize p state = outcome at ends ⊢
  cases outcome with
  | done value between => exact rest value ends.2 between ends.1
  | failed e => exact ends
  | outOfFuel => trivial

theorem outOfFuel : Points place post outOfFuel := fun _ _ => trivial

theorem fail {kind : ParseErrorKind} {span : Span} (there : place span) :
    Points place post (fail kind span) := fun _ _ => there

theorem ite {condition : Prop} [Decidable condition] {p q : Parser β} (hit : Points place post p)
    (miss : Points place post q) : Points place post (if condition then p else q) := by
  split
  · exact hit
  · exact miss

/-- One of two parsers, and then the same in both cases. -/
theorem ite_bind {condition : Prop} [Decidable condition] {mid : α → Prop} {p q : Parser α}
    {next : α → Parser β} (hit : Points place mid p) (miss : Points place mid q)
    (rest : ∀ value, mid value → Points place post (next value)) :
    Points place post (if condition then p >>= next else q >>= next) :=
  .ite (hit.bind rest) (miss.bind rest)

theorem cursor : Points place (Cursor.Placed place) cursor := fun _ placed => ⟨placed, placed⟩

theorem eat (kind : TokenKind) : Points place (fun _ => True) (eat kind) := by
  intro state placed
  unfold Parser.eat
  split
  · exact ⟨placed.advance, trivial⟩
  · exact ⟨placed, trivial⟩

theorem freshFunction : Points place (fun _ => True) freshFunction := fun _ placed => ⟨placed, trivial⟩

section Tokens

variable (nowhere : place .nowhere)
include nowhere

theorem advance : Points place (fun token => place token.span) advance :=
  fun _ placed => ⟨placed.advance, placed.current nowhere⟩

theorem expect (kind : TokenKind) : Points place (fun token => place token.span) (expect kind) := by
  intro state placed
  unfold Parser.expect
  dsimp only
  split
  · exact ⟨placed.advance, placed.current nowhere⟩
  · exact placed.current nowhere

theorem expectIdent : Points place (fun found => place found.2) expectIdent := by
  intro state placed
  unfold Parser.expectIdent
  dsimp only
  split
  · exact ⟨placed.advance, placed.current nowhere⟩
  · exact placed.current nowhere

end Tokens

end Points

section Expressions

variable (closed : Span.Closed place)
include closed

/-- The expressions of every rule are in their places, at the given fuel. -/
structure ExprsPoint (place : Span → Prop) (fuel : Nat) : Prop where
  expression : Points place (Expr.Within place) (expression fuel)
  operators : ∀ levels, Points place (Expr.Within place) (operators fuel levels)
  operatorTail : ∀ level tighter left, left.Within place →
    Points place (Expr.Within place) (operatorTail fuel level tighter left)
  power : Points place (Expr.Within place) (power fuel)
  unary : Points place (Expr.Within place) (unary fuel)
  primary : Points place (Expr.Within place) (primary fuel)
  nameOrCall : Points place (Expr.Within place) (nameOrCall fuel)
  arguments : ∀ before, (∀ arg ∈ before, arg.Within place) →
    Points place (fun args => ∀ arg ∈ args, arg.Within place) (arguments fuel before)

theorem ofBinary_within (op : BinaryOp) {left right : Expr} (atLeft : left.Within place)
    (atRight : right.Within place) : (Expr.ofBinary op left right).Within place :=
  ⟨closed.merge atLeft.span atRight.span, atLeft, atRight⟩

theorem exprsPoint : ∀ fuel, ExprsPoint place fuel
  | 0 => by
    constructor <;> intros <;> exact .outOfFuel
  | fuel + 1 => by
    have ih := exprsPoint fuel
    constructor
    case expression =>
      unfold expression
      refine (ih.operators _).bind fun left atLeft => (Points.eat _).bind fun assigns _ => ?_
      refine .ite (ih.expression.bind fun right atRight => .pure ?_) (.pure atLeft)
      exact ⟨closed.merge atLeft.span atRight.span, atLeft, atRight⟩
    case operators =>
      intro levels
      cases levels with
      | nil => exact ih.power
      | cons level tighter =>
        unfold operators
        exact (ih.operators _).bind fun left atLeft => ih.operatorTail _ _ _ atLeft
    case operatorTail =>
      intro level tighter left atLeft
      unfold operatorTail
      refine Points.cursor.bind fun cursor _ => ?_
      split
      · exact .pure atLeft
      · refine (Points.advance closed.nowhere).bind fun _ _ => ?_
        exact (ih.operators _).bind fun right atRight =>
          ih.operatorTail _ _ _ (ofBinary_within closed _ atLeft atRight)
    case power =>
      unfold power
      refine ih.unary.bind fun base atBase => (Points.eat _).bind fun raised _ => ?_
      refine .ite (ih.power.bind fun exponent atExponent => .pure ?_) (.pure atBase)
      exact ofBinary_within closed _ atBase atExponent
    case unary =>
      unfold unary
      refine Points.cursor.bind fun cursor placed => Points.cursor.bind fun _ _ => ?_
      split
      · refine (Points.advance closed.nowhere).bind fun _ _ => ih.unary.bind fun operand within => ?_
        exact .pure ⟨closed.merge (placed.current closed.nowhere) within.span, within⟩
      · exact ih.primary
    case primary =>
      unfold primary
      refine Points.cursor.bind fun cursor placed => ?_
      have here := placed.current closed.nowhere
      dsimp only
      split
      · exact (Points.advance closed.nowhere).bind fun _ _ => .pure here
      · split
        · exact ih.nameOrCall
        · refine (Points.advance closed.nowhere).bind fun _ _ => ih.expression.bind fun inner within => ?_
          refine (Points.expect closed.nowhere _).bind fun close atClose => .pure ?_
          exact within.setSpan (closed.merge here atClose)
        · exact .fail here
    case nameOrCall =>
      unfold nameOrCall
      refine (Points.expectIdent closed.nowhere).bind fun ⟨name, nameSpan⟩ atName => ?_
      refine (Points.eat _).bind fun called _ => .ite ?_ (.pure atName)
      refine Points.cursor.bind fun cursor _ => ?_
      have noArgs : Points place (fun args => ∀ arg ∈ args, arg.Within place)
          (Pure.pure [] : Parser (List Expr)) := .pure (by simp)
      refine noArgs.ite_bind (ih.arguments [] (by simp)) fun args atArgs => ?_
      refine (Points.expect closed.nowhere _).bind fun close atClose => .pure ?_
      exact ⟨closed.merge atName atClose, atName, Expr.allWithin_iff.mpr atArgs⟩
    case arguments =>
      intro before atBefore
      unfold arguments
      refine ih.expression.bind fun arg atArg => (Points.eat _).bind fun more _ => ?_
      have all : ∀ e ∈ arg :: before, e.Within place := List.forall_mem_cons.mpr ⟨atArg, atBefore⟩
      exact .ite (ih.arguments _ all) (.pure fun e member => all e (List.mem_reverse.mp member))

omit closed in
theorem typeName_points (nowhere : place .nowhere) :
    Points place (fun typeName => place typeName.span) typeName := by
  unfold typeName
  refine Points.cursor.bind fun cursor placed => ?_
  dsimp only
  split
  · exact (Points.advance nowhere).bind fun _ _ => .pure (placed.current nowhere)
  · exact .fail (placed.current nowhere)

theorem typeAfterColon_points :
    Points place (fun typeName => ∀ t ∈ typeName, place t.span) typeAfterColon := by
  unfold typeAfterColon
  refine (Points.eat _).bind fun _ _ => .ite ?_ (.pure (by simp))
  exact (typeName_points closed.nowhere).bind fun t there => .pure (by simpa using there)

theorem varDecl_points (fuel : Nat) : Points place (VarDecl.Within place) (varDecl fuel) := by
  unfold varDecl
  refine (Points.expectIdent closed.nowhere).bind fun ⟨name, nameSpan⟩ atName => ?_
  refine (typeAfterColon_points closed).bind fun typeName atType => ?_
  refine Points.cursor.bind fun cursor placed => (Points.eat _).bind fun _ _ => .ite ?_ ?_
  · exact (exprsPoint closed fuel).expression.bind fun init atInit => .pure ⟨atName, atType, atInit⟩
  · exact .fail (placed.current closed.nowhere)

theorem condition_points (fuel : Nat) : Points place (Expr.Within place) (condition fuel) := by
  unfold condition
  refine (Points.expect closed.nowhere _).bind fun _ _ => ?_
  refine (exprsPoint closed fuel).expression.bind fun e within => ?_
  exact (Points.expect closed.nowhere _).bind fun _ _ => .pure within

theorem parameters_points : ∀ (fuel : Nat) (before : List Param),
    (∀ param ∈ before, param.Within place) →
    Points place (fun params => ∀ param ∈ params, param.Within place) (parameters fuel before)
  | 0, _, _ => .outOfFuel
  | fuel + 1, before, atBefore => by
    unfold parameters
    refine (Points.expectIdent closed.nowhere).bind fun ⟨name, span⟩ atName => ?_
    refine (Points.expect closed.nowhere _).bind fun _ _ => ?_
    refine (typeName_points closed.nowhere).bind fun typeName atType => ?_
    refine (Points.eat _).bind fun more _ => ?_
    have all : ∀ param ∈ ({ name, span, typeName } : Param) :: before, param.Within place :=
      List.forall_mem_cons.mpr ⟨⟨atName, atType⟩, atBefore⟩
    exact .ite (parameters_points fuel _ all)
      (.pure fun param member => all param (List.mem_reverse.mp member))

theorem forInit_points (fuel : Nat) : Points place (ForInit.Within place) (forInit fuel) := by
  unfold forInit
  refine (Points.eat _).bind fun _ _ => .ite ?_ ?_
  · exact (varDecl_points closed fuel).bind fun decl within => .pure within
  · refine (exprsPoint closed fuel).expression.bind fun e within => ?_
    exact .ite (.pure within) (.fail within.span)

end Expressions

section Statements

/-- The statements of every rule are in their places, at the given fuel. -/
structure StmtsPoint (place : Span → Prop) (fuel : Nat) : Prop where
  statement : Points place (Stmt.Within place) (statement fuel)
  block : Points place (Block.Within place) (block fuel)
  statements : ∀ before, (∀ s ∈ before, s.Within place) →
    Points place (fun found => ∀ s ∈ found, s.Within place) (statements fuel before)
  function : Points place (FunctionDecl.Within place) (function fuel)
  elseBranch : Points place (fun body => ∀ b ∈ body, b.Within place) (elseBranch fuel)

variable (closed : Span.Closed place) {fuel : Nat}
include closed

/-- A statement covers the tokens from its first to the last one read. -/
theorem covered_points {cursor : Cursor} (placed : cursor.Placed place) :
    Points place place (do return cursor.currentSpan.merge (← Parser.cursor).previousSpan) :=
  Points.cursor.bind fun _ after =>
    .pure (closed.merge (placed.current closed.nowhere) (after.previous closed.nowhere))

theorem StmtsPoint.statement_succ (ih : StmtsPoint place fuel) :
    Points place (Stmt.Within place) (Parser.statement (fuel + 1)) := by
  have exprs := exprsPoint closed fuel
  have advance := Points.advance closed.nowhere
  have expect := Points.expect closed.nowhere
  unfold Parser.statement
  refine Points.cursor.bind fun cursor placed => Points.cursor.bind fun _ _ => ?_
  have covered := covered_points closed placed
  dsimp only
  split
  · refine advance.bind fun _ _ => (varDecl_points closed fuel).bind fun decl within => ?_
    exact (expect _).bind fun _ _ => covered.bind fun span there => .pure ⟨there, within⟩
  · exact ih.function.bind fun decl within => covered.bind fun span there => .pure ⟨there, within⟩
  · refine advance.bind fun _ _ => (condition_points closed fuel).bind fun test atTest => ?_
    refine ih.block.bind fun thenBranch atThen => ih.elseBranch.bind fun elseBranch atElse => ?_
    refine covered.bind fun span there => .pure ?_
    cases elseBranch with
    | none => exact ⟨there, atTest, atThen⟩
    | some body => exact ⟨there, atTest, atThen, atElse body rfl⟩
  · refine advance.bind fun _ _ => (condition_points closed fuel).bind fun test atTest => ?_
    refine ih.block.bind fun body atBody => covered.bind fun span there => ?_
    exact .pure ⟨there, atTest, atBody⟩
  · refine advance.bind fun _ _ => (expect _).bind fun _ _ => ?_
    refine (forInit_points closed fuel).bind fun init atInit => (expect _).bind fun _ _ => ?_
    refine exprs.expression.bind fun test atTest => (expect _).bind fun _ _ => ?_
    refine exprs.expression.bind fun step atStep => (expect _).bind fun _ _ => ?_
    refine ih.block.bind fun body atBody => covered.bind fun span there => ?_
    exact .pure ⟨there, atInit, atTest, atStep, atBody⟩
  · exact advance.bind fun _ _ => (expect _).bind fun _ _ => covered.bind fun span there => .pure there
  · exact advance.bind fun _ _ => (expect _).bind fun _ _ => covered.bind fun span there => .pure there
  · refine advance.bind fun _ _ => Points.cursor.bind fun _ _ => ?_
    have noValue : Points place (fun value => ∀ e ∈ value, e.Within place)
        (Pure.pure none : Parser (Option Expr)) := .pure (by simp)
    have oneValue : Points place (fun value => ∀ e ∈ value, e.Within place)
        (some <$> expression fuel) :=
      exprs.expression.bind fun e within => .pure (by simpa using within)
    refine noValue.ite_bind oneValue fun value atValue => (expect _).bind fun _ _ => ?_
    refine covered.bind fun span there => .pure ?_
    cases value with
    | none => exact there
    | some e => exact ⟨there, atValue e rfl⟩
  · exact ih.block.bind fun body within => covered.bind fun span there => .pure ⟨there, within⟩
  · refine exprs.expression.bind fun e within => (expect _).bind fun _ _ => ?_
    exact covered.bind fun span there => .pure ⟨there, within⟩

theorem StmtsPoint.function_succ (ih : StmtsPoint place fuel) :
    Points place (FunctionDecl.Within place) (Parser.function (fuel + 1)) := by
  have expect := Points.expect closed.nowhere
  unfold Parser.function
  refine (expect _).bind fun start atStart => ?_
  refine (Points.expectIdent closed.nowhere).bind fun ⟨name, nameSpan⟩ atName => ?_
  refine (expect _).bind fun _ _ => Points.cursor.bind fun _ _ => ?_
  have noParams : Points place (fun params => ∀ param ∈ params, param.Within place)
      (Pure.pure [] : Parser (List Param)) := .pure (by simp)
  refine noParams.ite_bind (parameters_points closed fuel [] (by simp)) fun params atParams => ?_
  refine (expect _).bind fun _ _ => (typeAfterColon_points closed).bind fun resultName atResult => ?_
  refine ih.block.bind fun body atBody => Points.freshFunction.bind fun id _ => .pure ?_
  have atSpan := closed.merge atStart (body.within_iff.mp atBody).1
  exact ⟨atName, atParams, atResult, atBody, atSpan⟩

theorem stmtsPoint : ∀ fuel, StmtsPoint place fuel
  | 0 => by
    constructor <;> intros <;> exact .outOfFuel
  | fuel + 1 => by
    have ih := stmtsPoint fuel
    have expect := Points.expect closed.nowhere
    refine ⟨ih.statement_succ closed, ?_, ?_, ih.function_succ closed, ?_⟩
    · unfold block
      refine (expect _).bind fun start atStart => ?_
      refine (ih.statements [] (by simp)).bind fun statements within => ?_
      refine (expect _).bind fun stop atStop => .pure ?_
      exact ⟨closed.merge atStart atStop, Stmt.allWithin_iff.mpr within⟩
    · intro before atBefore
      unfold statements
      refine Points.cursor.bind fun _ _ => .ite ?_ (Points.cursor.bind fun _ _ => .ite ?_ ?_)
      · exact .pure fun s member => atBefore s (List.mem_reverse.mp member)
      · exact Points.cursor.bind fun _ placed => .fail (placed.current closed.nowhere)
      · refine ih.statement.bind fun s within => ih.statements _ ?_
        exact List.forall_mem_cons.mpr ⟨within, atBefore⟩
    · unfold elseBranch
      refine (Points.eat _).bind fun _ _ => .ite (Points.cursor.bind fun _ _ => .ite ?_ ?_) ?_
      · refine ih.statement.bind fun s within => .pure ?_
        rintro _ ⟨⟩
        exact ⟨within.span, within, trivial⟩
      · exact ih.block.bind fun body within => .pure (by simpa using within)
      · exact .pure (by simp)

theorem programStatements_points : ∀ (fuel : Nat) (before : List Stmt),
    (∀ s ∈ before, s.Within place) →
    Points place (fun found => ∀ s ∈ found, s.Within place) (programStatements fuel before)
  | 0, _, _ => .outOfFuel
  | fuel + 1, before, atBefore => by
    unfold programStatements
    refine Points.cursor.bind fun _ _ => .ite ?_ ?_
    · exact .pure fun s member => atBefore s (List.mem_reverse.mp member)
    · refine (stmtsPoint closed fuel).statement.bind fun s within => ?_
      exact programStatements_points fuel _ (List.forall_mem_cons.mpr ⟨within, atBefore⟩)

theorem program_points (fuel : Nat) : Points place (Program.Within place) (program fuel) := by
  unfold program
  refine Points.cursor.bind fun cursor placed => ?_
  refine (programStatements_points closed fuel [] (by simp)).bind fun statements within => ?_
  refine Points.cursor.bind fun _ after => .pure ?_
  have atSpan := closed.merge (placed.current closed.nowhere) (after.current closed.nowhere)
  exact ⟨atSpan, Stmt.allWithin_iff.mpr within⟩

end Statements

end Parser

/-- If the tokens are in their places, then so are all nodes of the program that is read, or the error. -/
theorem parse?_points {place : Span → Prop} (closed : Span.Closed place) {tokens : List Token}
    (placed : ∀ token ∈ tokens, place token.span) :
    (∀ program, parse? tokens = some (.ok program) → program.Within place) ∧
      ∀ e, parse? tokens = some (.error e) → place e.span := by
  have start : (Cursor.ofTokens tokens).Placed place := placed
  have ends := Parser.program_points closed (parseFuel tokens) { cursor := .ofTokens tokens } start
  unfold parse?
  generalize Parser.program _ _ = outcome at ends ⊢
  cases outcome with
  | done program after =>
    refine ⟨fun program same => ?_, fun e same => ?_⟩
    · cases same
      exact ends.2
    · cases same
  | failed e =>
    refine ⟨fun program same => ?_, fun e same => ?_⟩
    · cases same
    · cases same
      exact ends
  | outOfFuel =>
    refine ⟨fun program same => ?_, fun e same => ?_⟩
    · cases same
    · cases same

end Lu
