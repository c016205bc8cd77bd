import Lu.Proofs.Run.Recorded

namespace Lu

/-!
Judgements that go along with recorded runs and the runs that they record, piece by piece. One of them is
that nothing is changed by the record.
-/

/-- The pieces of a run that evaluate nothing and call no function of the program, with how many of the
innermost scopes they may declare something in. -/
inductive Run.Simple : {α : Type} → Nat → Run α → Prop
  | outOfFuel {α : Type} (growing : Nat) : Simple growing (Run.outOfFuel : Run α)
  | pure {α : Type} (growing : Nat) (value : α) : Simple growing (pure value)
  | bind {α β : Type} {growing : Nat} {first : Run α} {next : α → Run β} : Simple growing first →
      (∀ value, Simple growing (next value)) → Simple growing (first >>= next)
  | fail {α : Type} (growing : Nat) (kind : RuntimeErrorKind) (span : Span) :
      Simple growing (Run.fail kind span : Run α)
  | attempt {α : Type} (span : Span) (result : Except RuntimeErrorKind α) :
      Simple 0 (Run.attempt span result)
  | attemptFault {α : Type} (result : Except Fault α) : Simple 0 (Run.attemptFault result)
  | context : Simple 0 Run.context
  | push (value : Value) : Simple 0 (Run.push value)
  | pop (span : Span) : Simple 0 (Run.pop span)
  | peek (span : Span) : Simple 0 (Run.peek span)
  | popMany (count : Nat) (span : Span) : Simple 0 (Run.popMany count span)
  | callNative (name : String) (args : List Value) (span : Span) :
      Simple 0 (Run.callNative name args span)
  | assign (span : Span) (name : String) (value : Value) :
      Simple 0 (Run.change span (Context.setVariable name value))
  | defineVariable (span : Span) (name : String) (value : Value) :
      Simple 1 (Run.change span (Context.addVariable name value))
  | defineFunction (span : Span) (decl : FunctionDecl) :
      Simple 1 (Run.change span (Context.addFunction decl))

namespace Run.Simple

theorem truth (span : Span) (value : Value) : Simple 0 (truth span value) := by
  cases value with
  | int n => exact .pure 0 _
  | float | str | void | nil => exact .fail 0 _ _

theorem callResult (decl : FunctionDecl) (span : Span) (flow : Flow) :
    Simple 0 (callResult decl span flow) := by
  cases flow with
  | returned value => exact .pure 0 _
  | next | breakLoop | continueLoop => exact .fail 0 _ _

/-- A value that is pushed if the attempt at it succeeds. -/
theorem pushAttempt (span : Span) (result : Except RuntimeErrorKind Value) :
    Simple 0 (do Run.push (← Run.attempt span result)) :=
  .bind (.attempt span result) .push

end Run.Simple

namespace Recorded

variable {σ α β : Type} {recorder : Recorder σ}

/-- A judgement on recorded pieces beside the pieces that they record. -/
structure Logic (recorder : Recorder σ)
    (Judged : (α : Type) → Nat → Recorded σ α → Run α → Prop) : Prop where
  pure {α : Type} (growing : Nat) (value : α) : Judged α growing (pure value) (pure value)
  bind {α β : Type} {growing : Nat} {first : Recorded σ α} {next : α → Recorded σ β}
      {first' : Run α} {next' : α → Run β} :
    Judged α growing first first' → (∀ value, Judged β growing (next value) (next' value)) →
      Judged β growing (first >>= next) (first' >>= next')
  grown {α : Type} {recorded : Recorded σ α} {piece : Run α} :
    Judged α 0 recorded piece → Judged α 1 recorded piece
  step {α : Type} {growing : Nat} {piece : Run α} :
    piece.Simple growing → Judged α growing (step recorder piece) piece
  visit {α : Type} {growing : Nat} {recorded : Recorded σ α} {piece : Run α} (task : Task) :
    Judged α growing recorded piece → Judged α growing (visit recorder task recorded) piece
  evaluating {recorded : Recorded σ Unit} {piece : Run Unit} (e : Expr) :
    Judged Unit 0 recorded piece → Judged Unit 0 (evaluating recorder e recorded) piece
  refer {α : Type} {recorded : Recorded σ α} {piece : Run α} (name : String)
      (symbol : Attribute "variable declaration" VariableSymbol) :
    Judged α 0 recorded piece → Judged α 0 (refer recorder name symbol >>= fun _ => recorded) piece
  bindVariable (span : Span) (name : String) (symbol : VariableSymbol) (value : Value) :
    Judged Unit 1 (bindVariable recorder span name symbol value)
      (Run.change span (Context.addVariable name value))
  defineFunction (decl : FunctionDecl) :
    Judged Unit 1 (defineFunction recorder decl)
      (Run.change decl.nameSpan (Context.addFunction decl))
  inScope {α : Type} {recorded : Recorded σ α} {piece : Run α} :
    Judged α 1 recorded piece → Judged α 0 (inScope recorder recorded) (Run.inScope piece)
  /-- The frame of a call hangs below the scope in which the function was found. -/
  call {α : Type} (id : Nat) (name : String) (span : Span) {body : FunctionDecl → Recorded σ α}
      {body' : FunctionDecl → Run α} :
    (∀ decl, Judged α 1 (body decl) (body' decl)) →
      Judged α 0
        (do
          let context ← Recorded.step recorder Run.context
          let (decl, scope) ← Recorded.step recorder (Run.attempt span (context.getFunction id name))
          Recorded.inCall recorder decl.name span (Recorded.inFrame recorder scope (body decl)))
        (do
          let (decl, scope) ← Run.attempt span ((← Run.context).getFunction id name)
          Run.inCall decl.name span (Run.inFrame scope (body' decl)))

variable {Judged : (α : Type) → Nat → Recorded σ α → Run α → Prop}

namespace Logic

variable (logic : Logic recorder Judged)
include logic

theorem forEach {α : Type} {growing : Nat} {recorded : α → Recorded σ Unit} {piece : α → Run Unit}
    (each : ∀ item, Judged Unit growing (recorded item) (piece item)) (items : List α) :
    Judged Unit growing (forEach recorded items) (Run.forEach piece items) := by
  induction items with
  | nil => exact logic.pure growing ()
  | cons item rest ih => exact logic.bind (each item) fun _ => ih

theorem sequence {recorded : Stmt → Recorded σ Flow} {run : Stmt → Run Flow}
    (each : ∀ s, Judged Flow 1 (recorded s) (run s)) (statements : List Stmt) (last : Value) :
    Judged Flow 1 (sequence recorded last statements) (Run.sequence run last statements) := by
  induction statements generalizing last with
  | nil => exact logic.pure 1 _
  | cons s rest ih =>
    refine logic.bind (each s) fun flow => ?_
    cases flow with
    | next value => exact ih value
    | breakLoop | continueLoop | returned => exact logic.pure 1 _

theorem topLevel {recorded : Stmt → Recorded σ Flow} {run : Stmt → Run Flow}
    (each : ∀ s, Judged Flow 1 (recorded s) (run s)) (statements : List Stmt) (last : Value) :
    Judged Value 1 (topLevel recorder recorded last statements) (Run.topLevel run last statements) := by
  induction statements generalizing last with
  | nil => exact logic.pure 1 _
  | cons s rest ih =>
    refine logic.bind (each s) fun flow => ?_
    cases flow with
    | next value => exact ih value
    | breakLoop | continueLoop | returned => exact logic.step (.fail 1 _ _)

theorem bindParams (decl : FunctionDecl) (args : List Value) (span : Span) :
    Judged Unit 1 (bindParams recorder decl args span) (Run.bindParams decl args span) := by
  unfold Recorded.bindParams Run.bindParams
  split
  · exact logic.forEach (fun _ => logic.bindVariable ..) _
  · exact logic.step (.fail 1 _ _)

end Logic

/-- What a judgement says of the recorded evaluators, for some amount of fuel. -/
structure EvaluatorsJudged (recorder : Recorder σ)
    (Judged : (α : Type) → Nat → Recorded σ α → Run α → Prop) (fuel : Nat) : Prop where
  expr (e) : Judged Unit 0 (expr recorder fuel e) (Run.expr fuel e)
  valueOf (e) : Judged Value 0 (valueOf recorder fuel e) (Run.valueOf fuel e)
  condition (e) : Judged Bool 0 (condition recorder fuel e) (Run.condition fuel e)
  callUser (symbol args span) :
    Judged Value 0 (callUser recorder fuel symbol args span) (Run.callUser fuel symbol args span)
  stmt (s) : Judged Flow 1 (stmt recorder fuel s) (Run.stmt fuel s)
  varDecl (decl) : Judged Value 1 (varDecl recorder fuel decl) (Run.varDecl fuel decl)
  block (body) : Judged Flow 0 (block recorder fuel body) (Run.block fuel body)
  whileLoop (test body) :
    Judged Flow 0 (whileLoop recorder fuel test body) (Run.whileLoop fuel test body)
  forLoop (test increment body) :
    Judged Flow 0 (forLoop recorder fuel test increment body) (Run.forLoop fuel test increment body)

namespace EvaluatorsJudged

variable {fuel : Nat} (logic : Logic recorder Judged) (ih : EvaluatorsJudged recorder Judged fuel)
include logic ih

theorem expr_succ (e : Expr) :
    Judged Unit 0 (Recorded.expr recorder (fuel + 1) e) (Run.expr (fuel + 1) e) := by
  unfold Recorded.expr Run.expr
  refine logic.evaluating e (logic.visit (.expr e) ?_)
  cases e with
  | literal _ value => exact logic.step (.push value)
  | «variable» _ name symbol =>
    exact logic.refer name symbol (logic.step (.bind .context fun _ => .pushAttempt _ _))
  | assign _ target value =>
    cases target with
    | «variable» _ name symbol =>
      refine logic.bind (ih.expr value) fun _ => logic.refer name symbol (logic.step ?_)
      exact .bind (.peek _) fun assigned => .assign _ name assigned
    | literal | assign | binary | unary | call => exact logic.step (.fail 0 _ _)
  | binary _ op left right =>
    cases op with
    | and =>
      refine logic.bind (ih.condition left) fun isTrue => ?_
      cases isTrue with
      | true => exact logic.bind (ih.condition right) fun _ => logic.step (.push _)
      | false => exact logic.step (.push _)
    | or =>
      refine logic.bind (ih.condition left) fun isTrue => ?_
      cases isTrue with
      | true => exact logic.step (.push _)
      | false => exact logic.bind (ih.condition right) fun _ => logic.step (.push _)
    | equal | notEqual | less | lessEqual | greater | greaterEqual | add | sub | mul | div | mod
    | pow =>
      refine logic.bind (ih.expr left) fun _ => logic.bind (ih.expr right) fun _ => logic.step ?_
      exact .bind (.pop _) fun _ => .bind (.pop _) fun _ => .pushAttempt _ _
  | unary _ op operand =>
    exact logic.bind (ih.valueOf operand) fun _ => logic.step (.pushAttempt _ _)
  | call _ _ _ args callee =>
    refine logic.bind (logic.forEach ih.expr args) fun _ => ?_
    refine logic.bind (logic.step (.popMany _ _)) fun values => ?_
    refine logic.bind (logic.step (.attemptFault _)) fun found => ?_
    cases found with
    | native signature => exact logic.step (.bind (.callNative _ _ _) .push)
    | user symbol =>
      exact logic.bind (ih.callUser symbol values _) fun value => logic.step (.push value)

theorem callUser_succ (symbol : FunctionSymbol) (args : List Value) (span : Span) :
    Judged Value 0 (Recorded.callUser recorder (fuel + 1) symbol args span)
      (Run.callUser (fuel + 1) symbol args span) := by
  have body (decl : FunctionDecl) : Judged Value 1
      (do
        Recorded.bindParams recorder decl args span
        let flow ← Recorded.block recorder fuel decl.body
        Recorded.step recorder (Run.callResult decl span flow))
      (do
        Run.bindParams decl args span
        Run.callResult decl span (← Run.block fuel decl.body)) :=
    logic.bind (logic.bindParams decl args span) fun _ =>
      logic.bind (logic.grown (ih.block decl.body)) fun flow =>
        logic.grown (logic.step (.callResult decl span flow))
  have called := logic.call symbol.id symbol.name span body
  exact logic.visit _ called

theorem stmt_succ (s : Stmt) :
    Judged Flow 1 (Recorded.stmt recorder (fuel + 1) s) (Run.stmt (fuel + 1) s) := by
  unfold Recorded.stmt Run.stmt
  refine logic.visit (.stmt s) ?_
  cases s with
  | expr _ e => exact logic.bind (logic.grown (ih.valueOf e)) fun _ => logic.pure 1 _
  | letVar _ decl => exact logic.bind (ih.varDecl decl) fun _ => logic.pure 1 _
  | function _ decl => exact logic.bind (logic.defineFunction decl) fun _ => logic.pure 1 _
  | block _ body => exact logic.grown (ih.block body)
  | ifElse _ test thenBranch elseBranch =>
    refine logic.bind (logic.grown (ih.condition test)) fun isTrue => ?_
    cases isTrue with
    | true => exact logic.grown (ih.block thenBranch)
    | false =>
      cases elseBranch with
      | none => exact logic.pure 1 _
      | some body => exact logic.grown (ih.block body)
  | whileLoop _ test body => exact logic.grown (ih.whileLoop test body)
  | forLoop _ init test increment body =>
    have loop := logic.grown (ih.forLoop test increment body)
    refine logic.grown (logic.inScope ?_)
    cases init with
    | letVar decl => exact logic.bind (ih.varDecl decl) fun _ => loop
    | assign e => exact logic.bind (logic.grown (ih.valueOf e)) fun _ => loop
  | breakLoop | continueLoop => exact logic.pure 1 _
  | returnValue _ value =>
    cases value with
    | none => exact logic.pure 1 _
    | some e => exact logic.bind (logic.grown (ih.valueOf e)) fun _ => logic.pure 1 _

theorem whileLoop_succ (test : Expr) (body : Block) :
    Judged Flow 0 (Recorded.whileLoop recorder (fuel + 1) test body)
      (Run.whileLoop (fuel + 1) test body) := by
  refine logic.bind (ih.condition test) fun isTrue => ?_
  cases isTrue with
  | false => exact logic.pure 0 _
  | true =>
    refine logic.bind (ih.block body) fun flow => ?_
    cases flow with
    | breakLoop | returned => exact logic.pure 0 _
    | next | continueLoop => exact ih.whileLoop test body

theorem forLoop_succ (test increment : Expr) (body : Block) :
    Judged Flow 0 (Recorded.forLoop recorder (fuel + 1) test increment body)
      (Run.forLoop (fuel + 1) test increment body) := by
  refine logic.bind (ih.condition test) fun isTrue => ?_
  cases isTrue with
  | false => exact logic.pure 0 _
  | true =>
    refine logic.bind (ih.block body) fun flow => ?_
    cases flow with
    | breakLoop | returned => exact logic.pure 0 _
    | next | continueLoop =>
      exact logic.bind (ih.valueOf increment) fun _ => ih.forLoop test increment body

end EvaluatorsJudged

/-- A judgement that goes along with every step holds of every evaluator. -/
theorem Logic.evaluators (logic : Logic recorder Judged) (fuel : Nat) :
    EvaluatorsJudged recorder Judged fuel := by
  induction fuel with
  | zero => constructor <;> intros <;> exact logic.step (.outOfFuel _)
  | succ fuel ih =>
    have sequence (body : Block) : Judged Flow 1
        (Recorded.sequence (Recorded.stmt recorder fuel) .void body.statements)
        (Run.sequence (Run.stmt fuel) .void body.statements) :=
      logic.sequence ih.stmt body.statements .void
    exact {
      expr := ih.expr_succ logic
      valueOf := fun e => logic.bind (ih.expr e) fun _ => logic.step (.pop e.span)
      condition := fun e =>
        logic.bind (ih.expr e) fun _ => logic.step (.bind (.pop e.span) (.truth e.span))
      callUser := ih.callUser_succ logic
      stmt := ih.stmt_succ logic
      varDecl := fun decl => logic.bind (logic.grown (ih.valueOf decl.init)) fun value =>
        logic.bind (logic.bindVariable ..) fun _ => logic.pure 1 _
      block := fun body => logic.visit _ (logic.inScope (sequence body))
      whileLoop := ih.whileLoop_succ logic
      forLoop := ih.forLoop_succ logic }

/-- Without its record the recorded piece is the piece. -/
def Erases (recorded : Recorded σ α) (piece : Run α) : Prop :=
  ∀ record machine, (recorded record machine).1 = piece machine

theorem Erases.bind {first : Recorded σ α} {next : α → Recorded σ β} {first' : Run α}
    {next' : α → Run β} (atFirst : Erases first first')
    (atNext : ∀ value, Erases (next value) (next' value)) :
    Erases (first >>= next) (first' >>= next') := by
  intro record machine
  have same := atFirst record machine
  change (Recorded.bind first next record machine).1 = _
  rw [Run.bind_apply, ← same]
  unfold Recorded.bind
  rcases first record machine with ⟨value | e | f | _, after⟩
  · exact atNext value after _
  · rfl
  · rfl
  · rfl

theorem Erases.step (piece : Run α) : Erases (step recorder piece) piece := by
  intro record machine
  unfold Recorded.step
  cases piece machine <;> rfl

/-- A note behind a piece is not part of the run. -/
theorem Erases.noted {recorded : Recorded σ Unit} {piece : Run Unit} {change : Machine → σ → σ}
    (erases : Erases recorded piece) : Erases (recorded >>= fun _ => note change) piece := by
  intro record machine
  change (Recorded.bind recorded _ record machine).1 = _
  rw [← erases record machine]
  unfold Recorded.bind
  rcases recorded record machine with ⟨value | e | f | _, after⟩ <;> rfl

theorem Erases.between {recorded : Recorded σ α} {piece : Run α} (enter leave : Context → Context)
    (inside : σ → σ) (erases : Erases recorded piece) :
    Erases (between recorder enter leave inside recorded) (Run.between enter leave piece) := by
  intro record machine
  exact congrArg (Run.between enter leave · machine) (funext fun _ => erases _ _)

theorem Erases.inCall {recorded : Recorded σ α} {piece : Run α} (function : String) (span : Span)
    (erases : Erases recorded piece) :
    Erases (inCall recorder function span recorded) (Run.inCall function span piece) := by
  intro record machine
  have same : (fun inner => (recorded (recorder.entersCall ⟨function, span⟩ record) inner).1) = piece :=
    funext (erases _)
  change Run.inCall function span (fun inner => (recorded _ inner).1) machine = _
  rw [same]

/-- To record a run does not change how it ends. -/
theorem erases_logic (recorder : Recorder σ) :
    Logic recorder fun _ _ recorded piece => Erases recorded piece where
  pure _ _ := fun _ _ => rfl
  bind := Erases.bind
  grown erases := erases
  step _ := .step _
  visit _ erases := fun _ machine => erases _ machine
  evaluating _ erases := erases.noted
  refer _ _ erases := fun _ machine => erases _ machine
  bindVariable _ _ _ _ := (Erases.step _).noted
  defineFunction _ := (Erases.step _).noted
  inScope erases := .between _ _ _ erases
  call _ _ _ _ _ erases := (Erases.step _).bind fun _ => (Erases.step _).bind fun (decl, _) =>
    .inCall _ _ (.between _ _ _ (erases decl))

theorem program_erases (recorder : Recorder σ) (fuel : Nat) (p : Program) :
    Erases (program recorder fuel p) (Run.program fuel p) := by
  have logic := erases_logic recorder
  exact (logic.topLevel (logic.evaluators fuel).stmt p.statements .void).bind fun _ => .step _

end Recorded

theorem Machine.record_fst {σ : Type} (recorder : Recorder σ) (start : σ) (fuel : Nat) (p : Program)
    (machine : Machine) : (machine.record recorder start fuel p).1 = machine.evaluate fuel p := by
  have erased := Recorded.program_erases recorder fuel p start
    { machine with context := Context.initial }
  unfold Machine.record Machine.evaluate
  rw [← erased]
  cases machine.operands with
  | cons => rfl
  | nil =>
    obtain ⟨outcome, record⟩ := Recorded.program recorder fuel p start _
    cases outcome <;> rfl

/-- How the run ends does not matter to its record. -/
theorem Machine.record_snd {σ : Type} (recorder : Recorder σ) (start : σ) (fuel : Nat) (p : Program)
    {machine : Machine} (idle : machine.operands = []) :
    (machine.record recorder start fuel p).2 =
      (Recorded.program recorder fuel p start { machine with context := Context.initial }).2 := by
  simp only [Machine.record, idle]
  obtain ⟨outcome, record⟩ := Recorded.program recorder fuel p start _
  cases outcome <;> rfl

end Lu
