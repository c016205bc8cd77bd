import Lu.Proofs.Check.Accepted
import Lu.Proofs.Run.Meeting
import Lu.Proofs.Scoping.Decision
import Lu.Proofs.Scoping.Placed
import Lu.Proofs.Typing.Blank

namespace Lu

/-!
Wherever a run comes to an expression, the scopes that it can see mirror those in which the names of the
expression were resolved.
-/

namespace Traced

variable {limit : Nat} {listed : List (Scopes × Expr)} {scopes : Scopes}

/-- What the evaluators do with parts of a program that were resolved in the scopes, for some amount of
fuel. -/
structure EvaluatorsMirror (limit : Nat) (listed : List (Scopes × Expr)) (fuel : Nat) : Prop where
  expr (e scopes) : e.blank.ListedIn listed scopes →
    Keeps limit listed scopes (Recorded.expr tracing fuel e)
  valueOf (e scopes) : e.blank.ListedIn listed scopes →
    Keeps limit listed scopes (Recorded.valueOf tracing fuel e)
  condition (e scopes) : e.blank.ListedIn listed scopes →
    Keeps limit listed scopes (Recorded.condition tracing fuel e)
  callUser (symbol args span scopes) :
    Keeps limit listed scopes (Recorded.callUser tracing fuel symbol args span)
  stmt (s scopes after) : s.isFunction = false → s.blank.ListedIn listed scopes after →
    Meets listed (At limit listed scopes) (Recorded.stmt tracing fuel s) (At limit listed after)
  function (span decl rest scopes) : Meets listed (Awaiting limit listed scopes (decl :: rest))
    (Recorded.stmt tracing fuel (.function span decl)) (Awaiting limit listed scopes rest)
  varDecl (decl kind scopes after) : decl.init.blank.ListedIn listed scopes →
    scopes.declareVariable (decl.ownSymbol kind) = .ok after →
    Meets listed (At limit listed scopes) (Recorded.varDecl tracing fuel decl) (At limit listed after)
  block (body scopes) : body.blank.ListedIn listed scopes →
    Keeps limit listed scopes (Recorded.block tracing fuel body)
  whileLoop (test body scopes) : test.blank.ListedIn listed scopes → body.blank.ListedIn listed scopes →
    Keeps limit listed scopes (Recorded.whileLoop tracing fuel test body)
  forLoop (test increment body scopes) : test.blank.ListedIn listed scopes →
    increment.blank.ListedIn listed scopes → body.blank.ListedIn listed scopes →
    Keeps limit listed scopes (Recorded.forLoop tracing fuel test increment body)

namespace EvaluatorsMirror

variable {fuel : Nat} (ih : EvaluatorsMirror limit listed fuel)
include ih

theorem expr_succ (e : Expr) (inScopes : e.blank.ListedIn listed scopes) :
    Keeps limit listed scopes (Recorded.expr tracing (fuel + 1) e) := by
  unfold Recorded.expr
  refine .evaluate inScopes ?_
  cases e with
  | literal _ value => exact .simple (.push value)
  | «variable» _ name symbol =>
    exact .refer name symbol (.simple (.bind .context fun _ => .pushAttempt _ _))
  | assign _ target value =>
    cases target with
    | «variable» _ name symbol =>
      refine (ih.expr value _ inScopes.assign).bind fun _ => .refer name symbol (.simple ?_)
      exact .bind (.peek _) fun assigned => .assign _ name assigned
    | literal | assign | binary | unary | call => exact .simple (.fail 0 _ _)
  | binary _ op left right =>
    obtain ⟨atLeft, atRight⟩ := inScopes.binary
    cases op with
    | and =>
      refine (ih.condition left _ atLeft).bind fun isTrue => ?_
      cases isTrue with
      | true => exact (ih.condition right _ atRight).bind fun _ => .simple (.push _)
      | false => exact .simple (.push _)
    | or =>
      refine (ih.condition left _ atLeft).bind fun isTrue => ?_
      cases isTrue with
      | true => exact .simple (.push _)
      | false => exact (ih.condition right _ atRight).bind fun _ => .simple (.push _)
    | equal | notEqual | less | lessEqual | greater | greaterEqual | add | sub | mul | div | mod
    | pow =>
      refine (ih.expr left _ atLeft).bind fun _ => (ih.expr right _ atRight).bind fun _ => .simple ?_
      exact .bind (.pop _) fun _ => .bind (.pop _) fun _ => .pushAttempt _ _
  | unary _ _ operand =>
    exact (ih.valueOf operand _ inScopes.unary).bind fun _ => .simple (.pushAttempt _ _)
  | call _ _ _ args callee =>
    have each : ∀ arg ∈ args, Keeps limit listed scopes (Recorded.expr tracing fuel arg) :=
      fun arg member => ih.expr arg _ (inScopes.call _ (by simpa using List.mem_map_of_mem member))
    refine (Meets.forEach each).bind fun _ => ?_
    refine (Meets.simple (.popMany _ _)).bind fun values => ?_
    refine (Meets.simple (.attemptFault _)).bind fun found => ?_
    cases found with
    | native signature => exact .simple (.bind (.callNative _ _ _) .push)
    | user symbol =>
      exact (ih.callUser symbol values _ _).bind fun value => .simple (.push value)

theorem valueOf_succ (e : Expr) (inScopes : e.blank.ListedIn listed scopes) :
    Keeps limit listed scopes (Recorded.valueOf tracing (fuel + 1) e) :=
  (ih.expr e _ inScopes).bind fun _ => .simple (.pop _)

theorem condition_succ (e : Expr) (inScopes : e.blank.ListedIn listed scopes) :
    Keeps limit listed scopes (Recorded.condition tracing (fuel + 1) e) :=
  (ih.expr e _ inScopes).bind fun _ => .simple (.bind (.pop _) fun value => .truth _ value)

/-- The parameters are declared around the body. -/
theorem callUser_succ (symbol : FunctionSymbol) (args : List Value) (span : Span) (scopes : Scopes) :
    Keeps limit listed scopes (Recorded.callUser tracing (fuel + 1) symbol args span) := by
  have body (decl : FunctionDecl) (around : Scopes) (inAround : decl.blank.ListedIn listed around) :
      Meets listed (At limit listed around.push)
        (do
          Recorded.bindParams tracing decl args span
          let flow ← Recorded.block tracing fuel decl.body
          Recorded.step tracing (Run.callResult decl span flow)) Anywhere := by
    obtain ⟨inner, bound, atBody⟩ := Meets.bindParams inAround args span
    refine bound.bind fun _ => (ih.block decl.body _ atBody).bind fun flow => ?_
    exact (Meets.simple (.callResult decl span flow)).anywhere
  have called : Meets listed (At limit listed scopes) _ _ :=
    Meets.call symbol.id symbol.name span body
  exact Meets.restored (.visit called nofun)
    ((evaluatorsFollow limit (fuel + 1)).callUser symbol args span)

theorem varDecl_succ (decl : VarDecl) (kind : VariableKind) {after : Scopes}
    (inScopes : decl.init.blank.ListedIn listed scopes)
    (declared : scopes.declareVariable (decl.ownSymbol kind) = .ok after) :
    Meets listed (At limit listed scopes) (Recorded.varDecl tracing (fuel + 1) decl) (At limit listed after) :=
  (ih.valueOf decl.init _ inScopes).bind fun _ => (Meets.bindVariable declared).bind fun _ => .pure _

theorem forLoop_meets {span : Span} {init : ForInit} {test increment : Expr} {body : Block}
    {after : Scopes} (inScopes : (Stmt.forLoop span init test increment body).blank.ListedIn listed
      scopes after) :
    Keeps limit listed scopes (Recorded.stmt tracing (fuel + 1) (.forLoop span init test increment body)) := by
  obtain ⟨-, inner, atInit, atTest, atIncrement, atBody⟩ := inScopes.forLoop
  have logic := follows_logic limit
  have follows := evaluatorsFollow limit fuel
  have loop := ih.forLoop test increment body _ atTest atIncrement atBody
  have loopFollows := logic.grown (follows.forLoop test increment body)
  refine .visit ?_ nofun
  cases init with
  | letVar decl =>
    obtain ⟨atDecl, declared⟩ := atInit.letVar
    exact ((ih.varDecl decl _ _ _ atDecl declared).bind fun _ => loop).inScope
      (logic.bind (follows.varDecl decl) fun _ => loopFollows)
  | assign e =>
    obtain ⟨rfl, atExpr⟩ := atInit.assign
    exact ((ih.valueOf e _ atExpr).bind fun _ => loop).inScope
      (logic.bind (logic.grown (follows.valueOf e)) fun _ => loopFollows)

theorem stmt_succ (s : Stmt) {after : Scopes} (plain : s.isFunction = false)
    (inScopes : s.blank.ListedIn listed scopes after) :
    Meets listed (At limit listed scopes) (Recorded.stmt tracing (fuel + 1) s) (At limit listed after) := by
  cases s with
  | forLoop =>
    obtain ⟨rfl, -⟩ := inScopes.forLoop
    exact ih.forLoop_meets inScopes
  | function => cases plain
  | letVar _ decl =>
    obtain ⟨atDecl, declared⟩ := inScopes.letVar
    exact .visit ((ih.varDecl decl _ _ _ atDecl declared).bind fun _ => .pure _) nofun
  | expr _ e =>
    obtain ⟨rfl, atExpr⟩ := inScopes.expr
    exact .visit ((ih.valueOf e _ atExpr).bind fun _ => .pure _) nofun
  | block _ body =>
    obtain ⟨rfl, atBody⟩ := inScopes.block
    exact .visit (ih.block body _ atBody) nofun
  | ifElse _ test thenBranch elseBranch =>
    rw [Stmt.blank_ifElse] at inScopes
    obtain ⟨rfl, atTest, atThen, atElse⟩ := inScopes.ifElse
    refine .visit ((ih.condition test _ atTest).bind fun isTrue => ?_) nofun
    cases isTrue with
    | true => exact ih.block thenBranch _ atThen
    | false =>
      cases elseBranch with
      | none => exact .pure _
      | some body => exact ih.block body _ (atElse _ rfl)
  | whileLoop _ test body =>
    obtain ⟨rfl, atTest, atBody⟩ := inScopes.whileLoop
    exact .visit (ih.whileLoop test body _ atTest atBody) nofun
  | breakLoop | continueLoop =>
    obtain ⟨_, run⟩ := inScopes.resolves
    cases run
    exact .visit (.pure _) nofun
  | returnValue _ value =>
    obtain ⟨rfl, atValue⟩ := inScopes.returnValue
    cases value with
    | none => exact .visit (.pure _) nofun
    | some e => exact .visit ((ih.valueOf e _ (atValue _ rfl)).bind fun _ => .pure _) nofun

omit ih in
theorem function_succ (span : Span) (decl : FunctionDecl) (rest : List FunctionDecl) (scopes : Scopes) :
    Meets listed (Awaiting limit listed scopes (decl :: rest))
      (Recorded.stmt tracing (fuel + 1) (.function span decl)) (Awaiting limit listed scopes rest) :=
  .visit (Meets.defineFunction.bind fun _ => .pure _) nofun

/-- One statement of a list: what was awaited before it, and what is after it. -/
theorem next {s : Stmt} {rest : List Stmt}
    (all : Stmt.AllListed listed scopes true ((s :: rest).map Stmt.blank)) :
    ∃ bound, Stmt.AllListed listed bound true (rest.map Stmt.blank) ∧
      Meets listed (Awaiting limit listed scopes (leadingFunctions (s :: rest))) (Recorded.stmt tracing fuel s)
        (Awaiting limit listed bound (leadingFunctions rest)) := by
  obtain ⟨after, atHead, later⟩ := all.cons
  cases kind : s.isFunction with
  | true =>
    cases s with
    | function span decl =>
      obtain ⟨rfl, -⟩ := atHead.function
      exact ⟨_, later, ih.function span decl _ _⟩
    | _ => cases kind
  | false =>
    rw [s.isFunction_blank, kind] at later
    obtain ⟨bound, within, awaits⟩ := At.begin later
    rw [leadingFunctions_eq_nil rest kind]
    exact ⟨bound, within, (ih.stmt s _ _ kind atHead).mono (fun _ _ => Awaiting.nothing) awaits⟩

theorem sequence_meets {statements : List Stmt} (last : Value)
    (all : Stmt.AllListed listed scopes true (statements.map Stmt.blank)) :
    Meets listed (Awaiting limit listed scopes (leadingFunctions statements))
      (Recorded.sequence (Recorded.stmt tracing fuel) last statements) Anywhere := by
  induction statements generalizing scopes last with
  | nil => exact (Meets.pure _).anywhere
  | cons s rest inRest =>
    obtain ⟨bound, later, first⟩ := ih.next all
    refine first.bind fun flow => ?_
    cases flow with
    | next value => exact inRest value later
    | breakLoop | continueLoop | returned => exact (Meets.pure _).anywhere

theorem topLevel_meets {statements : List Stmt} (last : Value)
    (all : Stmt.AllListed listed scopes true (statements.map Stmt.blank)) :
    Meets listed (Awaiting limit listed scopes (leadingFunctions statements))
      (Recorded.topLevel tracing (Recorded.stmt tracing fuel) last statements) Anywhere := by
  induction statements generalizing scopes last with
  | nil => exact (Meets.pure _).anywhere
  | cons s rest inRest =>
    obtain ⟨bound, later, first⟩ := ih.next all
    refine first.bind fun flow => ?_
    cases flow with
    | next value => exact inRest value later
    | breakLoop | continueLoop | returned => exact .step fun _ _ _ _ _ _ => trivial

theorem block_succ (body : Block) (inScopes : body.blank.ListedIn listed scopes) :
    Keeps limit listed scopes (Recorded.block tracing (fuel + 1) body) := by
  have all : Stmt.AllListed listed scopes.push false (body.statements.map Stmt.blank) := by
    have all := inScopes.statements
    cases body
    simpa [Block.blank] using all
  obtain ⟨inner, within, awaits⟩ := At.begin all
  have run := (ih.sequence_meets .void within).mono awaits fun _ _ => id
  have follows := (follows_logic limit).sequence (evaluatorsFollow limit fuel).stmt body.statements .void
  exact .visit (run.inScope follows) nofun

theorem whileLoop_succ (test : Expr) (body : Block) (atTest : test.blank.ListedIn listed scopes)
    (atBody : body.blank.ListedIn listed scopes) :
    Keeps limit listed scopes (Recorded.whileLoop tracing (fuel + 1) test body) := by
  refine (ih.condition test _ atTest).bind fun isTrue => ?_
  cases isTrue with
  | false => exact .pure _
  | true =>
    refine (ih.block body _ atBody).bind fun flow => ?_
    cases flow with
    | breakLoop | returned => exact .pure _
    | next | continueLoop => exact ih.whileLoop test body _ atTest atBody

theorem forLoop_succ (test increment : Expr) (body : Block)
    (atTest : test.blank.ListedIn listed scopes) (atIncrement : increment.blank.ListedIn listed scopes)
    (atBody : body.blank.ListedIn listed scopes) :
    Keeps limit listed scopes (Recorded.forLoop tracing (fuel + 1) test increment body) := by
  refine (ih.condition test _ atTest).bind fun isTrue => ?_
  cases isTrue with
  | false => exact .pure _
  | true =>
    refine (ih.block body _ atBody).bind fun flow => ?_
    cases flow with
    | breakLoop | returned => exact .pure _
    | next | continueLoop =>
      exact (ih.valueOf increment _ atIncrement).bind fun _ =>
        ih.forLoop test increment body _ atTest atIncrement atBody

end EvaluatorsMirror

theorem evaluatorsMirror (limit : Nat) (listed : List (Scopes × Expr)) (fuel : Nat) :
    EvaluatorsMirror limit listed fuel := by
  induction fuel with
  | zero => constructor <;> intros <;> exact .step fun _ _ _ _ _ ran => nomatch ran
  | succ fuel ih =>
    exact {
      expr := fun e _ => ih.expr_succ e
      valueOf := fun e _ => ih.valueOf_succ e
      condition := fun e _ => ih.condition_succ e
      callUser := ih.callUser_succ
      stmt := fun s _ _ => ih.stmt_succ s
      function := EvaluatorsMirror.function_succ
      varDecl := fun decl kind _ _ => ih.varDecl_succ decl kind
      block := fun body _ => ih.block_succ body
      whileLoop := fun test body _ => ih.whileLoop_succ test body
      forLoop := fun test increment body _ => ih.forLoop_succ test increment body }

/-- A program that was resolved starts in the scopes of the built-in functions. -/
theorem program_meets (fuel : Nat) {p : Program} {natives : List NativeSignature}
    (all : Stmt.AllListed listed (.ofNatives natives) false p.blank.statements) :
    Meets listed (At limit listed (.ofNatives natives)) (Recorded.program tracing fuel p) Anywhere := by
  obtain ⟨inner, within, awaits⟩ := At.begin all
  have run :=
    ((evaluatorsMirror limit listed fuel).topLevel_meets .void within).mono awaits fun _ _ => id
  exact run.bind fun _ => .step fun _ _ _ _ _ _ => trivial

end Traced

/-- A step of the analysis fills slots and changes nothing else. -/
theorem AnalysisStep.apply_blank {step : AnalysisStep} {program after : Program}
    (run : step.apply program = .ok after) : after.blank = program.blank := by
  cases step with
  | names => exact (Program.resolveNames_linked (by decide) run).1
  | types => exact Program.resolveTypes_blank run
  | placement | agreement => rw [(Check.guard_eq_ok.mp run).2]

theorem Program.analyse_blank {steps : List AnalysisStep} {program analysed : Program}
    (run : program.analyse steps = .ok analysed) : analysed.blank = program.blank := by
  induction steps generalizing program with
  | nil =>
    cases run
    rfl
  | cons step rest ih =>
    obtain ⟨between, first, later⟩ := Program.analyse_cons_eq_ok.mp run
    exact (ih later).trans (AnalysisStep.apply_blank first)

/-- Wherever a run of a program comes to an expression, the resolution of names has come to it, and the
scopes that are visible to the run mirror those that there were then: they are as many, but for that of
the built-in functions, and counted outwards each has at least the variables and functions that were
declared there. In the program of a source text there is one visit to speak of: no two lists of scopes
have the same expression. The program that runs may come from any steps of the analysis that begin with
the resolution of names. -/
theorem run_mirrors_resolution {program p : Program} (fresh : program.blank = program)
    {later : List AnalysisStep} (accepted : program.analyse (.names :: later) = .ok p) {limit : Nat}
    {machine : Machine} (idle : machine.Idle limit) (fuel : Nat) :
    (machine.trace fuel p).1 = machine.evaluate fuel p ∧
      ∀ visit ∈ (machine.trace fuel p).2, ∀ e, visit.task = .expr e →
        ∃ scopes, (scopes, e.blank) ∈ program.visited Native.signatures ∧
          (∃ e', e.blank.resolveNames scopes = .ok e') ∧ visit.machine.context.Mirrors scopes ∧
          ∀ source, byteLength source.toList ≤ Span.lastOffset → Source.program source = .ok program →
            ∀ others, (others, e.blank) ∈ program.visited Native.signatures → others = scopes := by
  obtain ⟨named, atNames, -⟩ := Program.analyse_cons_eq_ok.mp accepted
  have same : p.blank = program := (Program.analyse_blank accepted).trans fresh
  have all := Program.resolveNames_listed atNames
  rw [← same] at all
  have start : Traced.At limit (program.visited Native.signatures) (.ofNatives Native.signatures) []
      { machine with context := Context.initial } :=
    ⟨idle.steady, Context.initial_realizes _ _⟩
  rw [← same] at start
  have met := (Traced.program_meets fuel all {} _ start (List.forall_mem_nil _)).1
  rw [same, ← machine.record_snd tracing {} fuel p idle.operands] at met
  refine ⟨machine.trace_fst fuel p, fun visit visited e isExpr => ?_⟩
  have mirrored := met visit (List.mem_reverse.mp visited)
  obtain ⟨scopes, member, resolves, mirrors⟩ := mirrored e isExpr
  exact ⟨scopes, member, resolves, mirrors,
    fun _ short parsed _ member' => Source.visited_once short parsed member' member⟩

def Task.isExpr : Task → Bool
  | .expr _ => true
  | _ => false

def evenOddSource : String :=
  "fn even(n: int): int \x7b if (n == 0) \x7b return 1; \x7d return odd(n - 1); \x7d " ++
  "fn odd(n: int): int \x7b if (n == 0) \x7b return 0; \x7d return even(n - 1); \x7d " ++
  "for (let i = 0; i < 4; i = i + 1) \x7b print(even(i)); \x7d"

/-- Two functions that call each other, three calls deep, from a block inside a loop: inside them the
scopes of the callers are out of sight. -/
theorem even_odd_mirrors_resolution : ∃ program p : Program, program.blank = program ∧
    program.check = .ok p ∧
    (∃ visit ∈ ((Machine.fresh 10 {}).trace 100 p).2, visit.task.isExpr = true ∧
      visit.active.length = 3 ∧ visit.machine.context.depth = 9 ∧
      visit.machine.context.visibleScopes.length = 3) ∧
    ((Machine.fresh 10 {}).trace 100 p).1 = (Machine.fresh 10 {}).evaluate 100 p ∧
    ∀ visit ∈ ((Machine.fresh 10 {}).trace 100 p).2, ∀ e, visit.task = .expr e →
      ∃ scopes, (scopes, e.blank) ∈ program.visited Native.signatures ∧
        (∃ e', e.blank.resolveNames scopes = .ok e') ∧ visit.machine.context.Mirrors scopes ∧
        ∀ others, (others, e.blank) ∈ program.visited Native.signatures → others = scopes := by
  have accepted : (Source.checked evenOddSource).toOption.any (fun p =>
      ((Machine.fresh 10 {}).trace 100 p).2.any fun visit => visit.task.isExpr &&
        visit.active.length == 3 && visit.machine.context.depth == 9 &&
        visit.machine.context.visibleScopes.length == 3) = true := by
    decide +kernel
  obtain ⟨p, checked, some⟩ := ok_of_any accepted
  obtain ⟨program, parsed, analysed⟩ := Source.analysed_eq_ok checked
  have fresh := Source.program_fresh parsed
  obtain ⟨visit, visited, deep⟩ := List.any_eq_true.mp some
  simp only [Bool.and_eq_true, beq_iff_eq, and_assoc] at deep
  obtain ⟨same, mirrored⟩ := run_mirrors_resolution fresh analysed (Machine.fresh_idle 10 {}) 100
  refine ⟨program, p, fresh, analysed, ⟨visit, visited, deep⟩, same, fun visit visited e isExpr => ?_⟩
  obtain ⟨scopes, member, resolves, mirrors, once⟩ := mirrored visit visited e isExpr
  exact ⟨scopes, member, resolves, mirrors, once evenOddSource (by decide +kernel) parsed⟩

end Lu
