import Lu.Proofs.Scoping.Alike
import Lu.Proofs.Scoping.Recorded

namespace Lu

/-!
Names are resolved alike, however the functions of a run are ordered.
-/

variable {a b : Scopes}

mutual

theorem Expr.resolveNames_alike (alike : a.Alike b) :
    ∀ e : Expr, e.resolveNames b = e.resolveNames a
  | .literal .. => rfl
  | .variable .. => by simp only [Expr.resolveNames, alike.findVariable_eq]
  | .assign _ target value => by
    simp only [Expr.resolveNames, target.resolveNames_alike alike, value.resolveNames_alike alike]
  | .binary _ _ left right => by
    simp only [Expr.resolveNames, left.resolveNames_alike alike, right.resolveNames_alike alike]
  | .unary _ _ operand => by simp only [Expr.resolveNames, operand.resolveNames_alike alike]
  | .call _ _ _ args _ => by
    simp only [Expr.resolveNames, Expr.resolveAll_alike alike args, alike.findFunction_eq]

theorem Expr.resolveAll_alike (alike : a.Alike b) :
    ∀ args : List Expr, Expr.resolveNames.resolveAll b args = Expr.resolveNames.resolveAll a args
  | [] => rfl
  | e :: rest => by
    simp only [Expr.resolveNames.resolveAll, e.resolveNames_alike alike,
      Expr.resolveAll_alike alike rest]

end

/-- What is resolved is the same, and the scopes after it are alike. -/
def SameAfter {α : Type} (x y : α × Scopes) : Prop := y.1 = x.1 ∧ x.2.Alike y.2

theorem VarDecl.resolveNames_alike (alike : a.Alike b) (kind : VariableKind) (decl : VarDecl) :
    Check.Together SameAfter (decl.resolveNames a kind) (decl.resolveNames b kind) := by
  have typeName : decl.resolveTypeName b = decl.resolveTypeName a := by
    simp only [resolveTypeName, alike.findType_eq]
  refine .bind_same (decl.init.resolveNames_alike alike) fun init => ?_
  refine .bind_same typeName fun declared => .bind_same rfl fun symbol => ?_
  refine Check.Together.bind (alike.declare _ _ _) fun after after' afterAlike => ?_
  exact .ok ⟨rfl, afterAlike⟩

theorem ForInit.resolveNames_alike (alike : a.Alike b) (init : ForInit) :
    Check.Together SameAfter (init.resolveNames a) (init.resolveNames b) := by
  cases init with
  | letVar decl =>
    refine (decl.resolveNames_alike alike .iterator).bind fun after after' same => ?_
    exact .ok ⟨congrArg ForInit.letVar same.1, same.2⟩
  | assign e =>
    exact .bind_same (e.resolveNames_alike alike) fun e => .ok ⟨rfl, alike⟩

theorem declareVariables_alike (alike : a.Alike b) (bindings : List VariableSymbol) :
    Check.Together Scopes.Alike (declareVariables a bindings) (declareVariables b bindings) := by
  induction bindings generalizing a b with
  | nil => exact .ok alike
  | cons binding rest ih =>
    exact Check.Together.bind (alike.declare _ _ _) fun _ _ inner => ih inner

section Headers

variable {swaps : Prop} {f f' g g' : FunctionDecl}

/-- A header is resolved without its body. -/
theorem FunctionDecl.Rearranged.resolveHeader (rearranged : f.Rearranged swaps f')
    (alike : a.Alike b) :
    Check.Together (fun x y => x.1.Rearranged swaps y.1 ∧ y.2 = x.2) (f.resolveHeader a)
      (f'.resolveHeader b) := by
  have sameTypes : ∀ typeName, b.findType typeName = a.findType typeName := alike.findType_eq
  rw [f'.resolveHeader_congr sameTypes]
  cases rearranged with
  | mk body =>
    refine .bind_same rfl fun params => .bind_same rfl fun result => .bind_same rfl fun symbol => ?_
    exact .ok ⟨.mk body, rfl⟩

/-- What a function declares does not show in the header of another one. -/
theorem FunctionDecl.resolveHeader_declared {scopes inner : Scopes} {symbol : FunctionSymbol}
    (declares : scopes.declareFunction symbol = .ok inner) (f : FunctionDecl) :
    f.resolveHeader inner = f.resolveHeader scopes := by
  obtain ⟨-, rfl⟩ := Scopes.declare_eq_ok.mp declares
  exact f.resolveHeader_congr fun typeName => scopes.findType_bind _ _ typeName

/-- Two functions can be declared in either order if those after them can be declared. -/
theorem declareFunctions_swapped_ok {rest rest' : List FunctionDecl} (alike : a.Alike b)
    (likeF : f.Rearranged swaps f') (likeG : g.Rearranged swaps g')
    (later : ∀ {a b : Scopes}, a.Alike b → ∀ {bound}, declareFunctions a rest = .ok bound →
      ∃ bound', declareFunctions b rest' = .ok bound' ∧ bound.Alike bound')
    {bound : Scopes} (run : declareFunctions a (f :: g :: rest) = .ok bound) :
    ∃ bound', declareFunctions b (g' :: f' :: rest') = .ok bound' ∧ bound.Alike bound' := by
  obtain ⟨⟨headerF, symbolF⟩, atF, afterF⟩ := bind_eq_ok.mp run
  obtain ⟨inner, declaresF, others⟩ := bind_eq_ok.mp afterF
  obtain ⟨⟨headerG, symbolG⟩, atG, afterG⟩ := bind_eq_ok.mp others
  obtain ⟨between, declaresG, atRest⟩ := bind_eq_ok.mp afterG
  rw [g.resolveHeader_declared declaresF] at atG
  obtain ⟨⟨headerF', _⟩, atF', -, rfl⟩ := (likeF.resolveHeader alike).forth atF
  obtain ⟨⟨headerG', _⟩, atG', -, rfl⟩ := (likeG.resolveHeader alike).forth atG
  obtain ⟨between', declares, betweenAlike⟩ :=
    alike.declare_swapped_ok (bind_eq_ok.mpr ⟨inner, declaresF, declaresG⟩)
  obtain ⟨inner', declaresG', declaresF'⟩ := bind_eq_ok.mp declares
  rw [← f'.resolveHeader_declared declaresG'] at atF'
  obtain ⟨bound', atRest', boundAlike⟩ := later betweenAlike atRest
  refine ⟨bound', ?_, boundAlike⟩
  exact bind_eq_ok.mpr ⟨_, atG', bind_eq_ok.mpr ⟨_, declaresG', bind_eq_ok.mpr
    ⟨_, atF', bind_eq_ok.mpr ⟨_, declaresF', atRest'⟩⟩⟩⟩

end Headers

/-- The functions that a list begins with are declared alike, in whatever order. -/
theorem Stmt.AllRearranged.declareFunctions {swaps : Prop} {statements statements' : List Stmt}
    (rearranged : Stmt.AllRearranged swaps statements statements') {a b : Scopes}
    (alike : a.Alike b) :
    Check.Together Scopes.Alike (declareFunctions a (leadingFunctions statements))
      (declareFunctions b (leadingFunctions statements')) := by
  cases rearranged with
  | nil => exact .ok alike
  | cons like rest =>
    cases like with
    | function like =>
      refine (like.resolveHeader alike).bind fun (_, symbol) (_, symbol') ⟨_, same⟩ => ?_
      simp only at same
      rw [same]
      refine Check.Together.bind (alike.declare _ _ _) fun inner inner' innerAlike => ?_
      exact rest.declareFunctions innerAlike
    | expr | letVar | block | ifThen | ifElse | whileLoop | forLoop | breakLoop | continueLoop
    | returnValue => exact .ok alike
  | @swap _ _ _ _ _ _ others others' allowed likeF likeG rest =>
    refine .of_ok (fun bound run => ?_) fun bound run => ?_
    · exact declareFunctions_swapped_ok alike likeF likeG
        (fun alike _ run => (rest.declareFunctions alike).forth run) run
    · have later {a b : Scopes} (alike : a.Alike b) {bound : Scopes}
          (run : Lu.declareFunctions a (leadingFunctions others') = .ok bound) :
          ∃ bound', Lu.declareFunctions b (leadingFunctions others) = .ok bound' ∧
            bound.Alike bound' := by
        obtain ⟨bound', run', boundAlike⟩ := (rest.declareFunctions alike.symm).back run
        exact ⟨bound', run', boundAlike.symm⟩
      obtain ⟨bound', run', -⟩ :=
        declareFunctions_swapped_ok alike.symm likeG.symm likeF.symm later run
      exact ⟨bound', run'⟩

/-- Where a list is entered its first functions are declared, then it is resolved. -/
theorem Stmt.AllRearranged.enter {swaps : Prop} {statements statements' : List Stmt}
    (rearranged : Stmt.AllRearranged swaps statements statements')
    (inside : ∀ {a b : Scopes}, a.Alike b → Check.Together (Stmt.AllRearranged swaps)
      (Stmt.resolveAll a true statements) (Stmt.resolveAll b true statements'))
    {a b : Scopes} (alike : a.Alike b) :
    Check.Together (Stmt.AllRearranged swaps) (Stmt.resolveAll a false statements)
      (Stmt.resolveAll b false statements') := by
  rw [Stmt.resolveAll_enter, Stmt.resolveAll_enter]
  exact (rearranged.declareFunctions alike).bind fun _ _ inner => inside inner

theorem Stmt.Rearranged.isFunction {swaps : Prop} {s s' : Stmt} (rearranged : s.Rearranged swaps s') :
    s'.isFunction = s.isFunction := by
  cases rearranged <;> rfl

/-- Rearranged functions are resolved to rearranged functions, each with the same symbols. -/
def Scopes.Rearranged (swaps : Prop) (x y : Stmt × Scopes) : Prop :=
  x.1.Rearranged swaps y.1 ∧ x.2.Alike y.2

mutual

theorem Stmt.Rearranged.resolveNames {swaps : Prop} : ∀ {s s' : Stmt}, s.Rearranged swaps s' →
    ∀ {a b : Scopes}, a.Alike b →
      Check.Together (Scopes.Rearranged swaps) (s.resolveNames a) (s'.resolveNames b)
  | _, _, .expr, _, _, alike =>
    .bind_same (Expr.resolveNames_alike alike _) fun _ => .ok ⟨.expr, alike⟩
  | _, _, .letVar, _, _, alike =>
    (VarDecl.resolveNames_alike alike .localVar _).bind fun (_, _) (_, _) ⟨same, after⟩ => by
      subst same
      exact .ok ⟨.letVar, after⟩
  | _, _, .function like, _, _, alike =>
    (like.resolveNames alike).bind fun _ _ like => .ok ⟨.function like, alike⟩
  | _, _, .block like, _, _, alike =>
    (like.resolveNames alike).bind fun _ _ like => .ok ⟨.block like, alike⟩
  | _, _, .ifThen like, _, _, alike =>
    .bind_same (Expr.resolveNames_alike alike _) fun _ =>
      (like.resolveNames alike).bind fun _ _ like => .ok ⟨.ifThen like, alike⟩
  | _, _, .ifElse likeThen likeElse, _, _, alike =>
    .bind_same (Expr.resolveNames_alike alike _) fun _ =>
      (likeThen.resolveNames alike).bind fun _ _ likeThen =>
        (likeElse.resolveNames alike).bind fun _ _ likeElse => .ok ⟨.ifElse likeThen likeElse, alike⟩
  | _, _, .whileLoop like, _, _, alike =>
    .bind_same (Expr.resolveNames_alike alike _) fun _ =>
      (like.resolveNames alike).bind fun _ _ like => .ok ⟨.whileLoop like, alike⟩
  | _, _, .forLoop like, _, _, alike =>
    (ForInit.resolveNames_alike alike.push _).bind fun (_, _) (_, _) ⟨same, inner⟩ => by
      subst same
      refine .bind_same (Expr.resolveNames_alike inner _) fun condition => ?_
      refine .bind_same (Expr.resolveNames_alike inner _) fun step => ?_
      exact (like.resolveNames inner).bind fun _ _ like => .ok ⟨.forLoop like, alike⟩
  | _, _, .breakLoop, _, _, alike => .ok ⟨.breakLoop, alike⟩
  | _, _, .continueLoop, _, _, alike => .ok ⟨.continueLoop, alike⟩
  | .returnValue _ none, _, .returnValue, _, _, alike => .ok ⟨.returnValue, alike⟩
  | .returnValue _ (some _), _, .returnValue, _, _, alike =>
    .bind_same (Expr.resolveNames_alike alike _) fun _ => .ok ⟨.returnValue, alike⟩

theorem Stmt.AllRearranged.resolveAll {swaps : Prop} : ∀ {statements statements' : List Stmt},
    Stmt.AllRearranged swaps statements statements' → ∀ {a b : Scopes}, a.Alike b →
      Check.Together (Stmt.AllRearranged swaps) (Stmt.resolveAll a true statements)
        (Stmt.resolveAll b true statements')
  | _, _, .nil, _, _, _ => .ok .nil
  | s :: _, s' :: _, .cons like rest, _, _, alike => by
    rw [Stmt.resolveAll_cons, Stmt.resolveAll_cons, like.isFunction]
    refine (like.resolveNames alike).bind fun (_, _) (_, _) ⟨like, after⟩ => ?_
    cases s.isFunction with
    | true => exact (rest.resolveAll after).bind fun _ _ rest => .ok (.cons like rest)
    | false => exact (rest.enter rest.resolveAll after).bind fun _ _ rest => .ok (.cons like rest)
  | _, _, .swap allowed likeF likeG rest, _, _, alike => by
    simp only [Stmt.resolveAll_function_cons, bind_assoc]
    refine .swapped (likeF.resolveNames alike) (likeG.resolveNames alike) ?_
    intro f f' g g' likeF likeG
    exact (rest.resolveAll alike).bind fun _ _ rest => .ok (.swap allowed likeF likeG rest)

theorem Block.Rearranged.resolveNames {swaps : Prop} : ∀ {body body' : Block},
    body.Rearranged swaps body' → ∀ {a b : Scopes}, a.Alike b →
      Check.Together (Block.Rearranged swaps) (body.resolveNames a) (body'.resolveNames b)
  | _, _, .mk statements, _, _, alike =>
    (statements.enter statements.resolveAll alike.push).bind fun _ _ like => .ok (.mk like)

theorem FunctionDecl.Rearranged.resolveNames {swaps : Prop} : ∀ {f f' : FunctionDecl},
    f.Rearranged swaps f' → ∀ {a b : Scopes}, a.Alike b →
      Check.Together (FunctionDecl.Rearranged swaps) (f.resolveNames a) (f'.resolveNames b)
  | _, _, .mk body, _, _, alike => by
    refine ((FunctionDecl.Rearranged.mk body).resolveHeader alike).bind fun (header, symbol)
      (header', symbol') ⟨like, same⟩ => ?_
    simp only at same
    subst same
    refine (declareVariables_alike alike.push symbol'.params).bind fun _ _ inner => ?_
    refine (body.resolveNames inner).bind fun body body' likeBody => .ok ?_
    cases like with
    | mk => exact .mk likeBody

end

/-- The first step of the analysis accepts both programs or none, and every name has the same symbol in
both. -/
theorem Program.Rearranged.resolveNames {swaps : Prop} {p p' : Program}
    (rearranged : p.Rearranged swaps p') (natives : List NativeSignature) :
    Check.Together (Program.Rearranged swaps) (p.resolveNames natives) (p'.resolveNames natives) := by
  have statements := rearranged.statements
  rw [Program.resolveNames_eq, Program.resolveNames_eq]
  refine (statements.enter statements.resolveAll (Scopes.ofNatives natives).alike_self).bind
    fun _ _ like => ?_
  exact .ok ⟨rearranged.span, like⟩

end Lu
