import Lu.Check.Analysis
import Lu.Proofs.Scoping.Rearranging
import Lu.Proofs.Typing.Recorded

namespace Lu

/-!
The checker does not see in which order functions follow each other: it accepts both programs or none,
and gives every name the same symbol and every expression the same type.
-/

variable {swaps : Prop}

/-- Both checks pass or none. -/
abbrev Check.PassTogether (first second : Check Unit) : Prop := Check.Together Eq first second

section Placement

mutual

theorem Stmt.Rearranged.checkPlacement : ∀ {s s' : Stmt}, s.Rearranged swaps s' →
    ∀ around, Check.PassTogether (s.checkPlacement around) (s'.checkPlacement around)
  | _, _, .expr, _ | _, _, .letVar, _ => .same rfl
  | _, _, .function like, _ => like.checkPlacement
  | _, _, .block like, around => like.checkPlacement around
  | _, _, .ifThen like, around => .bind_same rfl fun _ => like.checkPlacement around
  | _, _, .ifElse likeThen likeElse, around =>
    .bind_same rfl fun _ =>
      (likeThen.checkPlacement around).bind fun _ _ _ => likeElse.checkPlacement around
  | _, _, .whileLoop like, _ => .bind_same rfl fun _ => like.checkPlacement _
  | _, _, .forLoop like, _ =>
    .bind_same rfl fun _ => .bind_same rfl fun _ => .bind_same rfl fun _ => like.checkPlacement _
  | _, _, .breakLoop, _ | _, _, .continueLoop, _ => .same rfl
  | .returnValue _ none, _, .returnValue, _ | .returnValue _ (some _), _, .returnValue, _ => .same rfl

theorem Stmt.AllRearranged.checkPlacements : ∀ {statements statements' : List Stmt},
    Stmt.AllRearranged swaps statements statements' → ∀ around,
      Check.PassTogether (Stmt.checkPlacements around statements)
        (Stmt.checkPlacements around statements')
  | _, _, .nil, _ => .same rfl
  | _, _, .cons like rest, around =>
    (like.checkPlacement around).bind fun _ _ _ => rest.checkPlacements around
  | _, _, .swap _ likeF likeG rest, around =>
    .swapped likeF.checkPlacement likeG.checkPlacement fun _ _ _ _ _ _ => rest.checkPlacements around

theorem Block.Rearranged.checkPlacement : ∀ {body body' : Block}, body.Rearranged swaps body' →
    ∀ around, Check.PassTogether (body.checkPlacement around) (body'.checkPlacement around)
  | _, _, .mk statements, around => statements.checkPlacements around

theorem FunctionDecl.Rearranged.checkPlacement : ∀ {f f' : FunctionDecl}, f.Rearranged swaps f' →
    Check.PassTogether f.checkPlacement f'.checkPlacement
  | _, _, .mk body => body.checkPlacement _

end

end Placement

section Types

/-- A function leaves the types of the variables as they are. -/
theorem Stmt.resolveTypesAll_function (types : VariableTypes) (span : Span) (f : FunctionDecl)
    (rest : List Stmt) :
    Stmt.resolveTypesAll types (.function span f :: rest) = f.resolveTypes types >>= fun f =>
      Stmt.resolveTypesAll types rest >>= fun rest => .ok (.function span f :: rest) := by
  rw [Stmt.resolveTypesAll, Stmt.resolveTypes, bind_assoc]
  rfl

/-- Rearranged statements, and the same types after both. -/
def VariableTypes.Rearranged (swaps : Prop) (x y : Stmt × VariableTypes) : Prop :=
  x.1.Rearranged swaps y.1 ∧ y.2 = x.2

mutual

theorem Stmt.Rearranged.resolveTypes : ∀ {s s' : Stmt}, s.Rearranged swaps s' → ∀ types,
    Check.Together (VariableTypes.Rearranged swaps) (s.resolveTypes types) (s'.resolveTypes types)
  | _, _, .expr, _ => .bind_same rfl fun _ => .ok ⟨.expr, rfl⟩
  | _, _, .letVar, _ => .bind_same rfl fun _ => .ok ⟨.letVar, rfl⟩
  | _, _, .function like, types =>
    (like.resolveTypes types).bind fun _ _ like => .ok ⟨.function like, rfl⟩
  | _, _, .block like, types => (like.resolveTypes types).bind fun _ _ like => .ok ⟨.block like, rfl⟩
  | _, _, .ifThen like, types =>
    .bind_same rfl fun _ => (like.resolveTypes types).bind fun _ _ like => .ok ⟨.ifThen like, rfl⟩
  | _, _, .ifElse likeThen likeElse, types =>
    .bind_same rfl fun _ => (likeThen.resolveTypes types).bind fun _ _ likeThen =>
      (likeElse.resolveTypes types).bind fun _ _ likeElse => .ok ⟨.ifElse likeThen likeElse, rfl⟩
  | _, _, .whileLoop like, types =>
    .bind_same rfl fun _ => (like.resolveTypes types).bind fun _ _ like => .ok ⟨.whileLoop like, rfl⟩
  | _, _, .forLoop like, _ =>
    .bind_same rfl fun (_, inner) => .bind_same rfl fun _ => .bind_same rfl fun _ =>
      (like.resolveTypes inner).bind fun _ _ like => .ok ⟨.forLoop like, rfl⟩
  | _, _, .breakLoop, _ => .ok ⟨.breakLoop, rfl⟩
  | _, _, .continueLoop, _ => .ok ⟨.continueLoop, rfl⟩
  | .returnValue _ none, _, .returnValue, _ => .ok ⟨.returnValue, rfl⟩
  | .returnValue _ (some _), _, .returnValue, _ => .bind_same rfl fun _ => .ok ⟨.returnValue, rfl⟩

theorem Stmt.AllRearranged.resolveTypesAll : ∀ {statements statements' : List Stmt},
    Stmt.AllRearranged swaps statements statements' → ∀ types,
      Check.Together (Stmt.AllRearranged swaps) (Stmt.resolveTypesAll types statements)
        (Stmt.resolveTypesAll types statements')
  | _, _, .nil, _ => .ok .nil
  | _, _, .cons like rest, _ =>
    (like.resolveTypes _).bind fun (_, _) (_, after) ⟨like, same⟩ => by
      simp only at same
      subst same
      exact (rest.resolveTypesAll after).bind fun _ _ rest => .ok (.cons like rest)
  | _, _, .swap allowed likeF likeG rest, types => by
    simp only [Stmt.resolveTypesAll_function, bind_assoc]
    refine .swapped (likeF.resolveTypes types) (likeG.resolveTypes types) ?_
    intro f f' g g' likeF likeG
    exact (rest.resolveTypesAll types).bind fun _ _ rest => .ok (.swap allowed likeF likeG rest)

theorem Block.Rearranged.resolveTypes : ∀ {body body' : Block}, body.Rearranged swaps body' →
    ∀ types, Check.Together (Block.Rearranged swaps) (body.resolveTypes types)
      (body'.resolveTypes types)
  | _, _, .mk statements, types =>
    (statements.resolveTypesAll types).bind fun _ _ like => .ok (.mk like)

theorem FunctionDecl.Rearranged.resolveTypes : ∀ {f f' : FunctionDecl}, f.Rearranged swaps f' →
    ∀ types, Check.Together (FunctionDecl.Rearranged swaps) (f.resolveTypes types)
      (f'.resolveTypes types)
  | _, _, .mk body, types => (body.resolveTypes types).bind fun _ _ like => .ok (.mk like)

end

end Types

section Agreement

/-- Statements of both programs that are in the same place: alike, or two functions. -/
def Stmt.Corresponds (swaps : Prop) (s s' : Stmt) : Prop :=
  s.Rearranged swaps s' ∨ s.isFunction = true ∧ s'.isFunction = true

/-- How a list ends can be told from both lists, but for functions. -/
theorem Stmt.AllRearranged.getLast? : ∀ {statements statements' : List Stmt},
    Stmt.AllRearranged swaps statements statements' →
      Option.Rel (Stmt.Corresponds swaps) statements.getLast? statements'.getLast?
  | _, _, .nil => .none
  | s :: rest, s' :: rest', .cons like atRest => by
    have later := atRest.getLast?
    rw [List.getLast?_cons, List.getLast?_cons]
    generalize rest.getLast? = last, rest'.getLast? = last' at later ⊢
    cases later with
    | none => exact .some (.inl like)
    | some corresponds => exact .some corresponds
  | _ :: _ :: rest, _ :: _ :: rest', .swap _ _ _ atRest => by
    have later := atRest.getLast?
    rw [List.getLast?_cons, List.getLast?_cons, List.getLast?_cons, List.getLast?_cons]
    generalize rest.getLast? = last, rest'.getLast? = last' at later ⊢
    cases later with
    | none => exact .some (.inr ⟨rfl, rfl⟩)
    | some corresponds => exact .some corresponds

theorem Stmt.eq_function {s : Stmt} (isFunction : s.isFunction = true) :
    ∃ span f, s = .function span f := by
  cases s with
  | function span f => exact ⟨span, f, rfl⟩
  | expr | letVar | block | ifElse | whileLoop | forLoop | breakLoop | continueLoop
  | returnValue => cases isFunction

/-- Both bodies end as they must, or none does: a function is no end for a body. -/
theorem Block.Rearranged.checkFinalReturn {body body' : Block} (rearranged : body.Rearranged swaps body')
    (function : EnclosingFunction) :
    Check.PassTogether (checkFinalReturn function body) (checkFinalReturn function body') := by
  have lasts := rearranged.statements.getLast?
  unfold Lu.checkFinalReturn
  rw [rearranged.span]
  generalize body.statements.getLast? = last, body'.statements.getLast? = last' at lasts ⊢
  cases lasts with
  | none => exact .same rfl
  | some corresponds =>
    obtain like | ⟨isFunction, isFunction'⟩ := corresponds
    · cases like with
      | returnValue => exact .same rfl
      | expr | letVar | function | block | ifThen | ifElse | whileLoop | forLoop | breakLoop
      | continueLoop => exact .error
    · obtain ⟨span, f, rfl⟩ := Stmt.eq_function isFunction
      obtain ⟨span', f', rfl⟩ := Stmt.eq_function isFunction'
      exact .error

mutual

theorem Stmt.Rearranged.checkTypes : ∀ {s s' : Stmt}, s.Rearranged swaps s' →
    ∀ around, Check.PassTogether (s.checkTypes around) (s'.checkTypes around)
  | _, _, .expr, _ | _, _, .letVar, _ => .same rfl
  | _, _, .function like, _ => like.checkTypes
  | _, _, .block like, around => like.checkTypes around
  | _, _, .ifThen like, around =>
    .bind_same rfl fun _ => .bind_same rfl fun _ => like.checkTypes around
  | _, _, .ifElse likeThen likeElse, around =>
    .bind_same rfl fun _ => .bind_same rfl fun _ =>
      (likeThen.checkTypes around).bind fun _ _ _ => likeElse.checkTypes around
  | _, _, .whileLoop like, around =>
    .bind_same rfl fun _ => .bind_same rfl fun _ => like.checkTypes around
  | _, _, .forLoop like, around =>
    .bind_same rfl fun _ => .bind_same rfl fun _ => .bind_same rfl fun _ => .bind_same rfl fun _ =>
      like.checkTypes around
  | _, _, .breakLoop, _ | _, _, .continueLoop, _ => .same rfl
  | .returnValue _ none, _, .returnValue, _ | .returnValue _ (some _), _, .returnValue, _ => .same rfl

theorem Stmt.AllRearranged.checkTypesAll : ∀ {statements statements' : List Stmt},
    Stmt.AllRearranged swaps statements statements' → ∀ around,
      Check.PassTogether (Stmt.checkTypesAll around statements)
        (Stmt.checkTypesAll around statements')
  | _, _, .nil, _ => .same rfl
  | _, _, .cons like rest, around =>
    (like.checkTypes around).bind fun _ _ _ => rest.checkTypesAll around
  | _, _, .swap _ likeF likeG rest, around =>
    .swapped likeF.checkTypes likeG.checkTypes fun _ _ _ _ _ _ => rest.checkTypesAll around

theorem Block.Rearranged.checkTypes : ∀ {body body' : Block}, body.Rearranged swaps body' →
    ∀ around, Check.PassTogether (body.checkTypes around) (body'.checkTypes around)
  | _, _, .mk statements, around => statements.checkTypesAll around

theorem FunctionDecl.Rearranged.checkTypes : ∀ {f f' : FunctionDecl}, f.Rearranged swaps f' →
    Check.PassTogether f.checkTypes f'.checkTypes
  | _, _, .mk body =>
    .bind_same rfl fun _ =>
      (body.checkTypes _).bind fun _ _ _ => body.checkFinalReturn _

end

end Agreement

/-- Every step of the analysis accepts both programs or none. -/
theorem AnalysisStep.apply_rearranged (step : AnalysisStep) {p p' : Program}
    (rearranged : p.Rearranged swaps p') :
    Check.Together (Program.Rearranged swaps) (step.apply p) (step.apply p') := by
  have statements := rearranged.statements
  cases step with
  | names => exact rearranged.resolveNames _
  | placement => exact (statements.checkPlacements {}).bind fun _ _ _ => .ok rearranged
  | types =>
    rw [AnalysisStep.apply, AnalysisStep.apply, Program.resolveTypes_eq, Program.resolveTypes_eq]
    exact (statements.resolveTypesAll []).bind fun _ _ like => .ok ⟨rearranged.span, like⟩
  | agreement => exact (statements.checkTypesAll none).bind fun _ _ _ => .ok rearranged

theorem Program.Rearranged.analyse {p p' : Program} (rearranged : p.Rearranged swaps p')
    (steps : List AnalysisStep) :
    Check.Together (Program.Rearranged swaps) (p.analyse steps) (p'.analyse steps) := by
  induction steps generalizing p p' with
  | nil => exact .ok rearranged
  | cons step rest ih =>
    simp only [Program.analyse, List.foldlM_cons]
    exact (step.apply_rearranged rearranged).bind fun _ _ like => ih like

end Lu
