import Lu.Proofs.Run.Comparison

namespace Lu

/-!
The evaluators side by side: started alike, on programs that differ only in the order of functions that
follow each other, they go the same way.
-/

/-- The machine can run a program: nothing is left of what ran before. -/
structure Machine.Idle (limit : Nat) (machine : Machine) : Prop where
  operands : machine.operands = []
  calls : machine.calls = .ofLimit limit

theorem Machine.fresh_idle (limit : Nat) (env : Environment) : (Machine.fresh limit env).Idle limit :=
  ⟨rfl, rfl⟩

namespace Run

/-- A function in front is defined, and the rest is run. -/
theorem sequence_function (fuel : Nat) (last : Value) (span : Span) (f : FunctionDecl)
    (rest : List Stmt) :
    sequence (stmt (fuel + 1)) last (.function span f :: rest) =
      (change f.nameSpan (Context.addFunction f) >>= fun _ => sequence (stmt (fuel + 1)) .void rest) := by
  funext machine
  simp only [sequence, stmt, bind_apply]
  cases change f.nameSpan (Context.addFunction f) machine <;> rfl

theorem topLevel_function (fuel : Nat) (last : Value) (span : Span) (f : FunctionDecl)
    (rest : List Stmt) :
    topLevel (stmt (fuel + 1)) last (.function span f :: rest) =
      (change f.nameSpan (Context.addFunction f) >>= fun _ => topLevel (stmt (fuel + 1)) .void rest) := by
  funext machine
  simp only [topLevel, stmt, bind_apply]
  cases change f.nameSpan (Context.addFunction f) machine <;> rfl

end Run

namespace Comparison

open Run

/-- Every evaluator goes the same way on both sides, for some amount of fuel on the first one. -/
structure EvaluatorsCouple (c : Comparison) (fuel : Nat) : Prop where
  expr {e} : e.Within c.Place → c.Couples (expr fuel e) (expr (c.spare + fuel) e)
  valueOf {e} : e.Within c.Place → c.Couples (valueOf fuel e) (valueOf (c.spare + fuel) e)
  condition {e} : e.Within c.Place → c.Couples (condition fuel e) (condition (c.spare + fuel) e)
  callUser (symbol args) {span} : c.Place span →
    c.Couples (callUser fuel symbol args span) (callUser (c.spare + fuel) symbol args span)
  stmt {s s'} : s.Rearranged c.swaps s' → s.Within c.Place →
    c.Couples (stmt fuel s) (stmt (c.spare + fuel) s')
  varDecl {decl} : decl.Within c.Place → c.Couples (varDecl fuel decl) (varDecl (c.spare + fuel) decl)
  block {body body'} : body.Rearranged c.swaps body' → body.Within c.Place →
    c.Couples (block fuel body) (block (c.spare + fuel) body')
  whileLoop {test body body'} : test.Within c.Place → body.Rearranged c.swaps body' →
    body.Within c.Place →
    c.Couples (whileLoop fuel test body) (whileLoop (c.spare + fuel) test body')
  forLoop {test step body body'} : test.Within c.Place → step.Within c.Place →
    body.Rearranged c.swaps body' → body.Within c.Place →
    c.Couples (forLoop fuel test step body) (forLoop (c.spare + fuel) test step body')

namespace EvaluatorsCouple

variable {c : Comparison} {fuel : Nat} (ih : c.EvaluatorsCouple fuel)

/-- Without fuel the first run does nothing, and the second one no more than it may. -/
theorem zero (c : Comparison) : c.EvaluatorsCouple 0 := by
  have advance := evaluators_advance (c.spare + 0)
  constructor
  · exact fun _ => .outOfFuel (advance.expr _) fun none => by rw [none]; rfl
  · exact fun _ => .outOfFuel (advance.valueOf _) fun none => by rw [none]; rfl
  · exact fun _ => .outOfFuel (advance.condition _) fun none => by rw [none]; rfl
  · exact fun _ _ _ _ => .outOfFuel (advance.callUser _ _ _) fun none => by rw [none]; rfl
  · exact fun _ _ => .outOfFuel (advance.stmt _) fun none => by rw [none]; rfl
  · exact fun _ => .outOfFuel (advance.varDecl _) fun none => by rw [none]; rfl
  · exact fun _ _ => .outOfFuel (advance.block _) fun none => by rw [none]; rfl
  · exact fun _ _ _ => .outOfFuel (advance.whileLoop _ _) fun none => by rw [none]; rfl
  · exact fun _ _ _ _ => .outOfFuel (advance.forLoop _ _ _) fun none => by rw [none]; rfl

include ih

theorem expr_succ {e : Expr} (within : e.Within c.Place) :
    c.Couples (Run.expr (fuel + 1) e) (Run.expr (c.spare + fuel + 1) e) := by
  have place := within.span
  unfold Run.expr
  cases e with
  | literal _ value => exact .push value
  | «variable» _ name => exact .getValue place name .push
  | assign note target value =>
    obtain ⟨-, atTarget, atValue⟩ := within
    cases target with
    | «variable» _ name =>
      exact (ih.expr atValue).bind fun _ => (Couples.peek atValue.span).bind fun assigned =>
        .assignVariable place name assigned
    | literal | assign | binary | unary | call => exact .fail atTarget.span (by simp)
  | binary note op left right =>
    obtain ⟨-, atLeft, atRight⟩ := within
    cases op with
    | and =>
      refine (ih.condition atLeft).bind fun isTrue => ?_
      cases isTrue with
      | true => exact (ih.condition atRight).bind fun _ => .push _
      | false => exact .push _
    | or =>
      refine (ih.condition atLeft).bind fun isTrue => ?_
      cases isTrue with
      | true => exact .push _
      | false => exact (ih.condition atRight).bind fun _ => .push _
    | equal | notEqual | less | lessEqual | greater | greaterEqual | add | sub | mul | div | mod
    | pow =>
      exact (ih.expr atLeft).bind fun _ => (ih.expr atRight).bind fun _ =>
        (Couples.pop atRight.span).bind fun _ => (Couples.pop atLeft.span).bind fun _ =>
          (Couples.attempt place (BinaryOp.eval_noOverflow _ _ _)).bind .push
  | unary note op operand =>
    obtain ⟨-, atOperand⟩ := within
    exact (ih.valueOf atOperand).bind fun _ =>
      (Couples.attempt place (UnaryOp.eval_noOverflow _ _)).bind .push
  | call note name nameSpan args callee =>
    obtain ⟨-, -, atArgs⟩ := within
    have each : ∀ arg ∈ args, c.Couples (Run.expr fuel arg) (Run.expr (c.spare + fuel) arg) :=
      fun arg member => ih.expr (Expr.allWithin_iff.mp atArgs arg member)
    refine (Couples.forEach each).bind fun _ => (Couples.popMany _ place).bind fun values =>
      (Couples.attemptFault _).bind fun found => ?_
    cases found with
    | native signature => exact (Couples.callNative _ values place).bind .push
    | user symbol => exact (ih.callUser symbol values place).bind .push

theorem callUser_succ (symbol : FunctionSymbol) (args : List Value) {span : Span}
    (place : c.Place span) :
    c.Couples (Run.callUser (fuel + 1) symbol args span)
      (Run.callUser (c.spare + fuel + 1) symbol args span) := by
  unfold Run.callUser
  refine .getFunction place symbol.id symbol.name (fun found => ?_) fun f f' scope relates => ?_
  · have body := (evaluators_advance (c.spare + fuel)).body advances_logic found.1 args span
    exact .inCall _ _ (.between _ _ body)
  · obtain ⟨same, body⟩ := relates.rearranged.eq_body
    obtain ⟨atName, atParams, -, atBody, -⟩ := f.within_iff.mp relates.within
    -- of the function on the other side only the body is its own
    generalize f'.body = body' at same body
    subst same
    refine .inCall f.name place (.inFrame scope ?_)
    refine Couples.bind ?_ fun _ => (ih.block body atBody).bind fun flow => ?_
    · unfold Run.bindParams
      split
      · refine .forEach fun pair member => ?_
        exact .defineVariable (atParams pair.1 (List.of_mem_zip member).1).1 pair.1.name pair.2
      · exact .fail place (by simp)
    · cases flow with
      | returned value => exact .pure value
      | next value => exact .fail atName (by simp)
      | breakLoop | continueLoop => exact .fail place (by simp)

theorem stmt_succ {s s' : Stmt} (rearranged : s.Rearranged c.swaps s') (within : s.Within c.Place) :
    c.Couples (Run.stmt (fuel + 1) s) (Run.stmt (c.spare + fuel + 1) s') := by
  unfold Run.stmt
  cases rearranged with
  | expr => exact (ih.valueOf within.2).bind fun _ => .pure _
  | letVar => exact (ih.varDecl within.2).bind fun _ => .pure _
  | @function span decl decl' like =>
    obtain ⟨-, atDecl⟩ := within
    have atName := (decl.within_iff.mp atDecl).1
    have sameSpan : decl'.nameSpan = decl.nameSpan := by rw [like.eq_body.1]
    simp only [sameSpan]
    exact (Couples.defineFunction atName ⟨like, atDecl⟩).bind fun _ => .pure _
  | block like => exact ih.block like within.2
  | ifThen like =>
    obtain ⟨-, atTest, atThen⟩ := within
    refine (ih.condition atTest).bind fun isTrue => ?_
    cases isTrue with
    | true => exact ih.block like atThen
    | false => exact .pure _
  | ifElse likeThen likeElse =>
    obtain ⟨-, atTest, atThen, atElse⟩ := within
    refine (ih.condition atTest).bind fun isTrue => ?_
    cases isTrue with
    | true => exact ih.block likeThen atThen
    | false => exact ih.block likeElse atElse
  | whileLoop like => exact ih.whileLoop within.2.1 like within.2.2
  | @forLoop _ init test step _ _ like =>
    obtain ⟨-, atInit, atTest, atStep, atBody⟩ := within
    refine .inScope ?_
    cases init with
    | letVar decl => exact (ih.varDecl atInit).bind fun _ => ih.forLoop atTest atStep like atBody
    | assign e => exact (ih.valueOf atInit).bind fun _ => ih.forLoop atTest atStep like atBody
  | breakLoop | continueLoop => exact .pure _
  | @returnValue _ value =>
    cases value with
    | none => exact .pure _
    | some e => exact (ih.valueOf within.2).bind fun _ => .pure _

omit ih in
/-- Statements one after the other, functions that have changed places among them. -/
theorem sequence (ih : c.EvaluatorsCouple fuel) {statements statements' : List Stmt}
    (rearranged : Stmt.AllRearranged c.swaps statements statements')
    (within : Stmt.AllWithin c.Place statements) (last : Value) :
    c.Couples (Run.sequence (Run.stmt fuel) last statements)
      (Run.sequence (Run.stmt (c.spare + fuel)) last statements') := by
  cases rearranged with
  | nil => exact .pure _
  | cons like rest =>
    refine (ih.stmt like within.1).bind fun flow => ?_
    cases flow with
    | next value => exact ih.sequence rest within.2 value
    | breakLoop | continueLoop | returned value => exact .pure _
  | swap swaps likeF likeG rest =>
    obtain ⟨⟨-, atF⟩, ⟨-, atG⟩, atRest⟩ := within
    have after := ih.sequence rest atRest .void
    cases fuel with
    | zero =>
      have advances := advances_logic.sequence (evaluators_advance (c.spare + 0)).stmt
      exact .outOfFuel (advances _ last) fun none => by rw [none]; rfl
    | succ fuel =>
      rw [← Nat.add_assoc] at after ⊢
      rw [sequence_function, sequence_function, sequence_function, sequence_function,
        likeF.nameSpan, likeG.nameSpan]
      exact .defineFunctions swaps (FunctionDecl.within_iff _ |>.mp atF).1
        (FunctionDecl.within_iff _ |>.mp atG).1 ⟨likeF, atF⟩ ⟨likeG, atG⟩ after

omit ih in
theorem topLevel (ih : c.EvaluatorsCouple fuel) {statements statements' : List Stmt}
    (rearranged : Stmt.AllRearranged c.swaps statements statements')
    (within : Stmt.AllWithin c.Place statements) (last : Value) :
    c.Couples (Run.topLevel (Run.stmt fuel) last statements)
      (Run.topLevel (Run.stmt (c.spare + fuel)) last statements') := by
  cases rearranged with
  | nil => exact .pure _
  | cons like rest =>
    refine (ih.stmt like within.1).bind fun flow => ?_
    cases flow with
    | next value => exact ih.topLevel rest within.2 value
    | breakLoop | continueLoop | returned value =>
      rw [like.span]
      exact .fail within.1.span nofun
  | swap swaps likeF likeG rest =>
    obtain ⟨⟨-, atF⟩, ⟨-, atG⟩, atRest⟩ := within
    have after := ih.topLevel rest atRest .void
    cases fuel with
    | zero =>
      have advances := advances_logic.topLevel (evaluators_advance (c.spare + 0)).stmt
      exact .outOfFuel (advances _ last) fun none => by rw [none]; rfl
    | succ fuel =>
      rw [← Nat.add_assoc] at after ⊢
      rw [topLevel_function, topLevel_function, topLevel_function, topLevel_function,
        likeF.nameSpan, likeG.nameSpan]
      exact .defineFunctions swaps (FunctionDecl.within_iff _ |>.mp atF).1
        (FunctionDecl.within_iff _ |>.mp atG).1 ⟨likeF, atF⟩ ⟨likeG, atG⟩ after

theorem whileLoop_succ {test : Expr} {body body' : Block} (atTest : test.Within c.Place)
    (like : body.Rearranged c.swaps body') (atBody : body.Within c.Place) :
    c.Couples (Run.whileLoop (fuel + 1) test body) (Run.whileLoop (c.spare + fuel + 1) test body') := by
  refine (ih.condition atTest).bind fun isTrue => ?_
  cases isTrue with
  | false => exact .pure _
  | true =>
    refine (ih.block like atBody).bind fun flow => ?_
    cases flow with
    | breakLoop | returned => exact .pure _
    | next | continueLoop => exact ih.whileLoop atTest like atBody

theorem forLoop_succ {test step : Expr} {body body' : Block} (atTest : test.Within c.Place)
    (atStep : step.Within c.Place) (like : body.Rearranged c.swaps body')
    (atBody : body.Within c.Place) :
    c.Couples (Run.forLoop (fuel + 1) test step body)
      (Run.forLoop (c.spare + fuel + 1) test step body') := by
  refine (ih.condition atTest).bind fun isTrue => ?_
  cases isTrue with
  | false => exact .pure _
  | true =>
    refine (ih.block like atBody).bind fun flow => ?_
    cases flow with
    | breakLoop | returned => exact .pure _
    | next | continueLoop =>
      exact (ih.valueOf atStep).bind fun _ => ih.forLoop atTest atStep like atBody

theorem block_succ {body body' : Block} (like : body.Rearranged c.swaps body')
    (atBody : body.Within c.Place) :
    c.Couples (Run.block (fuel + 1) body) (Run.block (c.spare + fuel + 1) body') :=
  .inScope (ih.sequence like.statements (body.within_iff.mp atBody).2 .void)

theorem succ : c.EvaluatorsCouple (fuel + 1) where
  expr := ih.expr_succ
  valueOf within := (ih.expr within).bind fun _ => .pop within.span
  condition within := (ih.expr within).bind fun _ => (Couples.pop within.span).bind (.truth within.span)
  callUser := ih.callUser_succ
  stmt := ih.stmt_succ
  varDecl within := (ih.valueOf within.2.2).bind fun _ =>
    (Couples.defineVariable within.1 _ _).bind fun _ => .pure _
  block := ih.block_succ
  whileLoop := ih.whileLoop_succ
  forLoop := ih.forLoop_succ

end EvaluatorsCouple

variable (c : Comparison)

theorem evaluatorsCouple (fuel : Nat) : c.EvaluatorsCouple fuel := by
  induction fuel with
  | zero => exact .zero c
  | succ fuel ih => exact ih.succ

theorem program_couples (fuel : Nat) {p p' : Program} (rearranged : p.Rearranged c.swaps p')
    (within : p.Within c.Place) : c.Couples (program fuel p) (program (c.spare + fuel) p') := by
  have place : c.Place p.span := within.1
  have topLevel := (c.evaluatorsCouple fuel).topLevel rearranged.statements within.2 .void
  refine topLevel.bind fun last => (Couples.push last).bind fun _ => ?_
  rw [rearranged.span]
  refine ⟨fun {m m'} alike => ?_, fun machine => ?_⟩
  · simp only [alike.operands]
    split
    · exact (Couples.pop place).ends alike
    · exact .failed (.ofAlike alike place nofun) alike
  · split
    · exact pop_advances p.span machine
    · exact .refl machine

/-- Two machines that are ready to run a program, and differ at most in what has been printed and in how
many calls there may be. -/
structure Ready (m m' : Machine) : Prop where
  idle : m.Idle c.limit
  idle' : m'.Idle c.limit'
  input : m'.env.input = m.env.input
  output : m'.env.output = c.printed ++ m.env.output

variable {c}

theorem Ready.alike {m m' : Machine} (ready : c.Ready m m') :
    c.Alike { m with context := Context.initial } { m' with context := Context.initial } where
  context := .initial
  operands := ready.idle'.operands.trans ready.idle.operands.symm
  frames := by simp only [ready.idle.calls, ready.idle'.calls, CallStack.ofLimit]
  limit := by simp only [ready.idle.calls, CallStack.ofLimit]
  limit' := by simp only [ready.idle'.calls, CallStack.ofLimit]
  depth := by simp only [ready.idle.calls, CallStack.ofLimit, List.length_nil, Nat.zero_le]
  places := by simp [ready.idle.calls, CallStack.ofLimit]
  input := ready.input
  output := ready.output

/-- Two programs that differ only in the order of functions go the same way. -/
theorem Ready.evaluate_ends {m m' : Machine} (ready : c.Ready m m') (fuel : Nat) {p p' : Program}
    (rearranged : p.Rearranged c.swaps p') (within : p.Within c.Place) :
    c.Ends (m.evaluate fuel p) (m'.evaluate (c.spare + fuel) p') := by
  have ends := (c.program_couples fuel rearranged within).ends ready.alike
  unfold Machine.evaluate
  simp only [ready.idle.operands, ready.idle'.operands] at ends ⊢
  generalize program fuel p _ = outcome, program (c.spare + fuel) p' _ = outcome' at ends ⊢
  cases ends with
  | done alike => exact .done alike
  | failed proper alike => exact .failed proper { alike with operands := rfl }
  | faulted alike => exact .faulted alike
  | outOfFuel => exact .outOfFuel
  | starved more => exact .starved more
  | gaveUp gives proper follows =>
    refine .gaveUp gives proper ?_
    cases outcome' with
    | done | failed | faulted => exact follows
    | outOfFuel => trivial

end Comparison

end Lu
