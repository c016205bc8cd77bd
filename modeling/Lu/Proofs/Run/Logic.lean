import Lu.Run.Eval

namespace Lu

/-!
Judgements about the pieces of a run that go along with the ways in which pieces are put together.
What holds of the steps then holds of all evaluators.
-/

namespace Run

/-- A judgement says of a piece how many of the operands it finds it may use up, how many there are in
their place when it is done, and how many of the innermost scopes it may declare something in. -/
structure Logic (Judged : (α : Type) → Nat → Nat → Nat → Run α → Prop) : Prop where
  outOfFuel {α : Type} (taken left growing : Nat) : Judged α taken left growing outOfFuel
  pure {α : Type} (count growing : Nat) (value : α) : Judged α count count growing (pure value)
  bind {α β : Type} {taken between left growing : Nat} {first : Run α} {next : α → Run β} :
    Judged α taken between growing first → (∀ value, Judged β between left growing (next value)) →
      Judged β taken left growing (first >>= next)
  /-- Operands below those that the piece uses. -/
  above {α : Type} {taken left growing : Nat} {piece : Run α} (count : Nat) :
    Judged α taken left growing piece → Judged α (taken + count) (left + count) growing piece
  grown {α : Type} {taken left : Nat} {piece : Run α} :
    Judged α taken left 0 piece → Judged α taken left 1 piece
  fail {α : Type} (taken left growing : Nat) (kind : RuntimeErrorKind) (span : Span) :
    Judged α taken left growing (fail kind span)
  attempt {α : Type} (span : Span) (result : Except RuntimeErrorKind α) :
    Judged α 0 0 0 (attempt span result)
  attemptFault {α : Type} (result : Except Fault α) : Judged α 0 0 0 (attemptFault result)
  context : Judged Context 0 0 0 context
  push (value : Value) : Judged Unit 0 1 0 (push value)
  pop (span : Span) : Judged Value 1 0 0 (pop span)
  peek (span : Span) : Judged Value 1 1 0 (peek span)
  popMany (count : Nat) (span : Span) : Judged (List Value) count 0 0 (popMany count span)
  callNative (name : String) (args : List Value) (span : Span) :
    Judged Value 0 0 0 (callNative name args span)
  assign (span : Span) (name : String) (value : Value) :
    Judged Unit 0 0 0 (change span (Context.setVariable name value))
  defineVariable (span : Span) (name : String) (value : Value) :
    Judged Unit 0 0 1 (change span (Context.addVariable name value))
  defineFunction (span : Span) (decl : FunctionDecl) :
    Judged Unit 0 0 1 (change span (Context.addFunction decl))
  inScope {α : Type} {piece : Run α} : Judged α 0 0 1 piece → Judged α 0 0 0 (inScope piece)
  /-- The frame of a call hangs below the scope in which the function was found. -/
  call {α : Type} {id : Nat} {name : String} {span : Span} {body : FunctionDecl → Run α} :
    (∀ decl, Judged α 0 0 1 (body decl)) →
      Judged α 0 0 0 (do
        let (decl, scope) ← Run.attempt span ((← Run.context).getFunction id name)
        inCall decl.name span (inFrame scope (body decl)))

variable {Judged : (α : Type) → Nat → Nat → Nat → Run α → Prop}

namespace Logic

variable (logic : Logic Judged)
include logic

theorem truth (span : Span) (value : Value) : Judged Bool 0 0 0 (truth span value) := by
  cases value with
  | int n => exact logic.pure 0 0 _
  | float | str | void | nil => exact logic.fail 0 0 0 _ _

/-- Each item adds its operand to those of the items before it. -/
theorem forEach {α : Type} {added growing : Nat} {piece : α → Run Unit}
    (each : ∀ item, Judged Unit 0 added growing (piece item)) (items : List α) :
    Judged Unit 0 (items.length * added) growing (forEach piece items) := by
  induction items with
  | nil =>
    rw [List.length_nil, Nat.zero_mul]
    exact logic.pure 0 growing ()
  | cons item rest ih =>
    have others := logic.above added ih
    rw [Nat.zero_add, ← Nat.succ_mul] at others
    exact logic.bind (each item) fun _ => others

theorem sequence {run : Stmt → Run Flow} (each : ∀ s, Judged Flow 0 0 1 (run s))
    (statements : List Stmt) (last : Value) : Judged Flow 0 0 1 (sequence run last statements) := by
  induction statements generalizing last with
  | nil => exact logic.pure 0 1 _
  | cons s rest ih =>
    refine logic.bind (each s) fun flow => ?_
    cases flow with
    | next value => exact ih value
    | breakLoop | continueLoop | returned => exact logic.pure 0 1 _

theorem topLevel {run : Stmt → Run Flow} (each : ∀ s, Judged Flow 0 0 1 (run s))
    (statements : List Stmt) (last : Value) : Judged Value 0 0 1 (topLevel run last statements) := by
  induction statements generalizing last with
  | nil => exact logic.pure 0 1 _
  | cons s rest ih =>
    refine logic.bind (each s) fun flow => ?_
    cases flow with
    | next value => exact ih value
    | breakLoop | continueLoop | returned => exact logic.fail 0 0 1 _ _

theorem bindParams (decl : FunctionDecl) (args : List Value) (span : Span) :
    Judged Unit 0 0 1 (bindParams decl args span) := by
  unfold Run.bindParams
  split
  · have each (binding : Param × Value) : Judged Unit 0 0 1
        (change binding.1.span (Context.addVariable binding.1.name binding.2)) :=
      logic.defineVariable ..
    exact logic.forEach each _
  · exact logic.fail 0 0 1 _ _

theorem callResult (decl : FunctionDecl) (span : Span) (flow : Flow) :
    Judged Value 0 0 0 (callResult decl span flow) := by
  cases flow with
  | returned value => exact logic.pure 0 0 _
  | next | breakLoop | continueLoop => exact logic.fail 0 0 0 _ _

/-- A value that is pushed if the attempt at it succeeds. -/
theorem pushAttempt (span : Span) (result : Except RuntimeErrorKind Value) :
    Judged Unit 0 1 0 (do Run.push (← Run.attempt span result)) :=
  logic.bind (logic.attempt span result) logic.push

end Logic

/-- What a judgement says of the evaluators, for some amount of fuel. -/
structure EvaluatorsJudged (Judged : (α : Type) → Nat → Nat → Nat → Run α → Prop) (fuel : Nat) :
    Prop where
  expr (e) : Judged Unit 0 1 0 (expr fuel e)
  valueOf (e) : Judged Value 0 0 0 (valueOf fuel e)
  condition (e) : Judged Bool 0 0 0 (condition fuel e)
  callUser (symbol args span) : Judged Value 0 0 0 (callUser fuel symbol args span)
  stmt (s) : Judged Flow 0 0 1 (stmt fuel s)
  varDecl (decl) : Judged Value 0 0 1 (varDecl fuel decl)
  block (body) : Judged Flow 0 0 0 (block fuel body)
  whileLoop (test body) : Judged Flow 0 0 0 (whileLoop fuel test body)
  forLoop (test step body) : Judged Flow 0 0 0 (forLoop fuel test step body)

namespace EvaluatorsJudged

variable {fuel : Nat} (logic : Logic Judged) (ih : EvaluatorsJudged Judged fuel)
include logic ih

/-- The arguments of a call are all among the operands. -/
theorem arguments (args : List Expr) :
    Judged Unit 0 args.length 0 (Run.forEach (Run.expr fuel) args) := by
  have pushed := logic.forEach ih.expr args
  rwa [Nat.mul_one] at pushed

theorem expr_succ (e : Expr) : Judged Unit 0 1 0 (Run.expr (fuel + 1) e) := by
  unfold Run.expr
  cases e with
  | literal _ value => exact logic.push value
  | «variable» note name => exact logic.bind logic.context fun context => logic.pushAttempt _ _
  | assign _ target value =>
    cases target with
    | «variable» _ name =>
      refine logic.bind (ih.expr value) fun _ => logic.bind (logic.peek _) fun assigned => ?_
      exact logic.above 1 (logic.assign _ name assigned)
    | literal | assign | binary | unary | call => exact logic.fail 0 1 0 _ _
  | binary _ op left right =>
    cases op with
    | and =>
      refine logic.bind (ih.condition left) fun isTrue => ?_
      cases isTrue with
      | true => exact logic.bind (ih.condition right) fun _ => logic.push _
      | false => exact logic.push _
    | or =>
      refine logic.bind (ih.condition left) fun isTrue => ?_
      cases isTrue with
      | true => exact logic.push _
      | false => exact logic.bind (ih.condition right) fun _ => logic.push _
    | equal | notEqual | less | lessEqual | greater | greaterEqual | add | sub | mul | div | mod
    | pow =>
      refine logic.bind (ih.expr left) fun _ => logic.bind (logic.above 1 (ih.expr right)) fun _ => ?_
      refine logic.bind (logic.above 1 (logic.pop _)) fun rightValue => ?_
      exact logic.bind (logic.pop _) fun leftValue => logic.pushAttempt _ _
  | unary _ op operand => exact logic.bind (ih.valueOf operand) fun _ => logic.pushAttempt _ _
  | call _ _ _ args callee =>
    refine logic.bind (ih.arguments logic args) fun _ => ?_
    refine logic.bind (logic.popMany _ _) fun values => ?_
    refine logic.bind (logic.attemptFault _) fun found => ?_
    cases found with
    | native signature => exact logic.bind (logic.callNative _ _ _) logic.push
    | user symbol => exact logic.bind (ih.callUser symbol values _) logic.push

/-- What runs in the frame of a call. -/
theorem body (decl : FunctionDecl) (args : List Value) (span : Span) :
    Judged Value 0 0 1 (do
      Run.bindParams decl args span
      Run.callResult decl span (← Run.block fuel decl.body)) :=
  logic.bind (logic.bindParams decl args span) fun _ =>
    logic.bind (logic.grown (ih.block decl.body)) fun flow =>
      logic.grown (logic.callResult decl span flow)

theorem callUser_succ (symbol : FunctionSymbol) (args : List Value) (span : Span) :
    Judged Value 0 0 0 (Run.callUser (fuel + 1) symbol args span) :=
  logic.call fun decl => ih.body logic decl args span

theorem stmt_succ (s : Stmt) : Judged Flow 0 0 1 (Run.stmt (fuel + 1) s) := by
  unfold Run.stmt
  cases s with
  | expr _ e => exact logic.bind (logic.grown (ih.valueOf e)) fun _ => logic.pure 0 1 _
  | letVar _ decl => exact logic.bind (ih.varDecl decl) fun _ => logic.pure 0 1 _
  | function _ decl => exact logic.bind (logic.defineFunction _ decl) fun _ => logic.pure 0 1 _
  | block _ body => exact logic.grown (ih.block body)
  | ifElse _ test thenBranch elseBranch =>
    refine logic.bind (logic.grown (ih.condition test)) fun isTrue => ?_
    cases isTrue with
    | true => exact logic.grown (ih.block thenBranch)
    | false =>
      cases elseBranch with
      | none => exact logic.pure 0 1 _
      | some body => exact logic.grown (ih.block body)
  | whileLoop _ test body => exact logic.grown (ih.whileLoop test body)
  | forLoop _ init test step body =>
    have loop := logic.grown (ih.forLoop test step body)
    refine logic.grown (logic.inScope ?_)
    cases init with
    | letVar decl => exact logic.bind (ih.varDecl decl) fun _ => loop
    | assign e => exact logic.bind (logic.grown (ih.valueOf e)) fun _ => loop
  | breakLoop | continueLoop => exact logic.pure 0 1 _
  | returnValue _ value =>
    cases value with
    | none => exact logic.pure 0 1 _
    | some e => exact logic.bind (logic.grown (ih.valueOf e)) fun _ => logic.pure 0 1 _

theorem whileLoop_succ (test : Expr) (body : Block) :
    Judged Flow 0 0 0 (Run.whileLoop (fuel + 1) test body) := by
  refine logic.bind (ih.condition test) fun isTrue => ?_
  cases isTrue with
  | false => exact logic.pure 0 0 _
  | true =>
    refine logic.bind (ih.block body) fun flow => ?_
    cases flow with
    | breakLoop | returned => exact logic.pure 0 0 _
    | next | continueLoop => exact ih.whileLoop test body

theorem forLoop_succ (test step : Expr) (body : Block) :
    Judged Flow 0 0 0 (Run.forLoop (fuel + 1) test step body) := by
  refine logic.bind (ih.condition test) fun isTrue => ?_
  cases isTrue with
  | false => exact logic.pure 0 0 _
  | true =>
    refine logic.bind (ih.block body) fun flow => ?_
    cases flow with
    | breakLoop | returned => exact logic.pure 0 0 _
    | next | continueLoop => exact logic.bind (ih.valueOf step) fun _ => ih.forLoop test step body

end EvaluatorsJudged

/-- A judgement that goes along with every step holds of every evaluator. -/
theorem Logic.evaluators (logic : Logic Judged) (fuel : Nat) : EvaluatorsJudged Judged fuel := by
  induction fuel with
  | zero => constructor <;> intros <;> exact logic.outOfFuel _ _ _
  | succ fuel ih =>
    have valueOf (e : Expr) : Judged Value 0 0 0 (Run.valueOf (fuel + 1) e) :=
      logic.bind (ih.expr e) fun _ => logic.pop e.span
    exact {
      expr := ih.expr_succ logic
      valueOf := valueOf
      condition := fun e =>
        logic.bind (ih.expr e) fun _ => logic.bind (logic.pop e.span) (logic.truth e.span)
      callUser := ih.callUser_succ logic
      stmt := ih.stmt_succ logic
      varDecl := fun decl => logic.bind (logic.grown (ih.valueOf decl.init)) fun value =>
        logic.bind (logic.defineVariable _ decl.name value) fun _ => logic.pure 0 1 _
      block := fun body => logic.inScope (logic.sequence ih.stmt body.statements .void)
      whileLoop := ih.whileLoop_succ logic
      forLoop := ih.forLoop_succ logic }

end Run

end Lu
