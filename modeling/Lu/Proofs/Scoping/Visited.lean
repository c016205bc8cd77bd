import Lu.Proofs.Scoping.Recorded
import Lu.Proofs.Scoping.Statements

namespace Lu

/-!
The expressions that the resolution of names comes to, each with the scopes that there are when it does.
The scopes are those of the resolution itself: where it stops at an error, nothing after it is visited.
-/

def Expr.visited (scopes : Scopes) : Expr → List (Scopes × Expr)
  | .literal note value => [(scopes, .literal note value)]
  | .variable note name symbol => [(scopes, .variable note name symbol)]
  | .assign note target value =>
    (scopes, .assign note target value) :: (target.visited scopes ++ value.visited scopes)
  | .binary note op left right =>
    (scopes, .binary note op left right) :: (left.visited scopes ++ right.visited scopes)
  | .unary note op operand => (scopes, .unary note op operand) :: operand.visited scopes
  | .call note name nameSpan args callee =>
    (scopes, .call note name nameSpan args callee) :: allVisited scopes args
where
  allVisited (scopes : Scopes) : List Expr → List (Scopes × Expr)
    | [] => []
    | e :: rest => e.visited scopes ++ allVisited scopes rest

def ForInit.visited (scopes : Scopes) : ForInit → List (Scopes × Expr)
  | .letVar decl => decl.init.visited scopes
  | .assign e => e.visited scopes

mutual

def Stmt.visited (scopes : Scopes) : Stmt → List (Scopes × Expr)
  | .expr _ e => e.visited scopes
  | .letVar _ decl => decl.init.visited scopes
  | .function _ decl => decl.visited scopes
  | .block _ body => body.visited scopes
  | .ifElse _ condition thenBranch none => condition.visited scopes ++ thenBranch.visited scopes
  | .ifElse _ condition thenBranch (some elseBranch) =>
    condition.visited scopes ++ (thenBranch.visited scopes ++ elseBranch.visited scopes)
  | .whileLoop _ condition body => condition.visited scopes ++ body.visited scopes
  | .forLoop _ init condition step body =>
    init.visited scopes.push ++
      match init.resolveNames scopes.push with
      | .ok (_, inner) => condition.visited inner ++ (step.visited inner ++ body.visited inner)
      | .error _ => []
  | .breakLoop _ | .continueLoop _ | .returnValue _ none => []
  | .returnValue _ (some value) => value.visited scopes

/-- A statement is visited in the scopes that those before it leave, and a function in the scopes of its
run. -/
def Stmt.allVisited (scopes : Scopes) (inRun : Bool) : List Stmt → List (Scopes × Expr)
  | [] => []
  | .function span decl :: rest =>
    match (if inRun then .ok scopes
      else declareFunctions scopes (leadingFunctions (.function span decl :: rest))) with
    | .ok scopes => decl.visited scopes ++ Stmt.allVisited scopes true rest
    | .error _ => []
  | s :: rest =>
    s.visited scopes ++
      match s.resolveNames scopes with
      | .ok (_, after) => Stmt.allVisited after false rest
      | .error _ => []

def Block.visited (scopes : Scopes) : Block → List (Scopes × Expr)
  | ⟨_, statements⟩ => Stmt.allVisited scopes.push false statements

def FunctionDecl.visited (scopes : Scopes) : FunctionDecl → List (Scopes × Expr)
  | ⟨id, name, nameSpan, params, resultName, body, span, symbol⟩ =>
    match FunctionDecl.resolveHeader scopes
      ⟨id, name, nameSpan, params, resultName, body, span, symbol⟩ with
    | .ok (_, function) =>
      match declareVariables scopes.push function.params with
      | .ok inner => body.visited inner
      | .error _ => []
    | .error _ => []

end

def Program.visited (natives : List NativeSignature) (program : Program) : List (Scopes × Expr) :=
  Stmt.allVisited (Scopes.ofNatives natives) false program.statements

theorem Expr.mem_visited_self (scopes : Scopes) (e : Expr) : (scopes, e) ∈ e.visited scopes := by
  cases e <;> exact List.mem_cons_self ..

/-- Where a list begins, its first functions are declared before its statements are visited. -/
theorem Stmt.allVisited_enter {scopes inner : Scopes} {statements : List Stmt}
    (declared : declareFunctions scopes (leadingFunctions statements) = .ok inner) :
    Stmt.allVisited scopes false statements = Stmt.allVisited inner true statements := by
  cases statements with
  | nil => rfl
  | cons s rest =>
    cases s with
    | function span decl =>
      simp only [Stmt.allVisited, Bool.false_eq_true, if_false, if_true, declared]
    | expr | letVar | block | ifElse | whileLoop | forLoop | breakLoop | continueLoop
    | returnValue =>
      cases declared
      rfl

theorem Stmt.allVisited_cons {scopes after : Scopes} {s s' : Stmt} (rest : List Stmt)
    (atHead : s.resolveNames scopes = .ok (s', after)) :
    Stmt.allVisited scopes true (s :: rest) =
      s.visited scopes ++ Stmt.allVisited after s.isFunction rest := by
  cases s with
  | function span decl =>
    obtain ⟨decl', -, same⟩ := bind_eq_ok.mp atHead
    cases same
    rfl
  | expr | letVar | block | ifElse | whileLoop | forLoop | breakLoop | continueLoop
  | returnValue =>
    rw [Stmt.allVisited.eq_3 _ _ _ _ (by rintro _ _ ⟨⟩), atHead]
    rfl

theorem Stmt.isFunction_blank (s : Stmt) : s.blank.isFunction = s.isFunction := by
  cases s with
  | ifElse => rw [Stmt.blank_ifElse]; rfl
  | expr | letVar | function | block | whileLoop | forLoop | breakLoop | continueLoop
  | returnValue => rfl

/-- The expression is resolved in the scopes, and what is visited in it is listed. -/
structure Expr.ListedIn (listed : List (Scopes × Expr)) (scopes : Scopes) (e : Expr) : Prop where
  resolves : ∃ e', e.resolveNames scopes = .ok e'
  visited : e.visited scopes ⊆ listed

/-- The first part of a header is resolved and visited, and leaves the scopes `inner`. -/
structure ForInit.ListedIn (listed : List (Scopes × Expr)) (scopes inner : Scopes) (init : ForInit) :
    Prop where
  resolves : ∃ init', init.resolveNames scopes = .ok (init', inner)
  visited : init.visited scopes ⊆ listed

structure Stmt.ListedIn (listed : List (Scopes × Expr)) (scopes after : Scopes) (s : Stmt) : Prop where
  resolves : ∃ s', s.resolveNames scopes = .ok (s', after)
  visited : s.visited scopes ⊆ listed

structure Stmt.AllListed (listed : List (Scopes × Expr)) (scopes : Scopes) (inRun : Bool)
    (statements : List Stmt) : Prop where
  resolves : ∃ statements', Stmt.resolveAll scopes inRun statements = .ok statements'
  visited : Stmt.allVisited scopes inRun statements ⊆ listed

structure Block.ListedIn (listed : List (Scopes × Expr)) (scopes : Scopes) (body : Block) : Prop where
  resolves : ∃ body', body.resolveNames scopes = .ok body'
  visited : body.visited scopes ⊆ listed

structure FunctionDecl.ListedIn (listed : List (Scopes × Expr)) (scopes : Scopes)
    (decl : FunctionDecl) : Prop where
  resolves : ∃ decl', decl.resolveNames scopes = .ok decl'
  visited : decl.visited scopes ⊆ listed

variable {listed : List (Scopes × Expr)} {scopes after : Scopes}

namespace Expr.ListedIn

theorem assign {note : ExprNote} {target value : Expr}
    (whole : (Expr.assign note target value).ListedIn listed scopes) : value.ListedIn listed scopes := by
  obtain ⟨_, run⟩ := whole.resolves
  obtain ⟨_, -, run⟩ := bind_eq_ok.mp run
  obtain ⟨value', atValue, -⟩ := bind_eq_ok.mp run
  obtain ⟨-, parts⟩ := List.cons_subset.mp whole.visited
  exact ⟨⟨value', atValue⟩, (List.append_subset.mp parts).2⟩

theorem binary {note : ExprNote} {op : BinaryOp} {left right : Expr}
    (whole : (Expr.binary note op left right).ListedIn listed scopes) :
    left.ListedIn listed scopes ∧ right.ListedIn listed scopes := by
  obtain ⟨_, run⟩ := whole.resolves
  obtain ⟨left', atLeft, run⟩ := bind_eq_ok.mp run
  obtain ⟨right', atRight, -⟩ := bind_eq_ok.mp run
  obtain ⟨-, parts⟩ := List.cons_subset.mp whole.visited
  obtain ⟨inLeft, inRight⟩ := List.append_subset.mp parts
  exact ⟨⟨⟨left', atLeft⟩, inLeft⟩, ⟨⟨right', atRight⟩, inRight⟩⟩

theorem unary {note : ExprNote} {op : UnaryOp} {operand : Expr}
    (whole : (Expr.unary note op operand).ListedIn listed scopes) : operand.ListedIn listed scopes := by
  obtain ⟨_, run⟩ := whole.resolves
  obtain ⟨operand', atOperand, -⟩ := bind_eq_ok.mp run
  exact ⟨⟨operand', atOperand⟩, (List.cons_subset.mp whole.visited).2⟩

theorem all {args args' : List Expr} (run : Expr.resolveNames.resolveAll scopes args = .ok args')
    (visited : Expr.visited.allVisited scopes args ⊆ listed) :
    ∀ arg ∈ args, arg.ListedIn listed scopes := by
  induction args generalizing args' with
  | nil => exact List.forall_mem_nil _
  | cons e rest ih =>
    obtain ⟨e', atHead, run⟩ := bind_eq_ok.mp run
    obtain ⟨rest', atRest, -⟩ := bind_eq_ok.mp run
    obtain ⟨inHead, inRest⟩ := List.append_subset.mp visited
    exact List.forall_mem_cons.mpr ⟨⟨⟨e', atHead⟩, inHead⟩, ih atRest inRest⟩

theorem call {note : ExprNote} {name : String} {nameSpan : Span} {args : List Expr}
    {callee : Attribute "function declaration" Callee}
    (whole : (Expr.call note name nameSpan args callee).ListedIn listed scopes) :
    ∀ arg ∈ args, arg.ListedIn listed scopes := by
  obtain ⟨_, run⟩ := whole.resolves
  obtain ⟨_, atArgs, -⟩ := bind_eq_ok.mp run
  exact all atArgs (List.cons_subset.mp whole.visited).2

end Expr.ListedIn

/-- A variable is declared after its initial value is resolved. -/
theorem VarDecl.resolveNames_declares {kind : VariableKind} {decl decl' : VarDecl}
    (run : decl.resolveNames scopes kind = .ok (decl', after)) :
    (∃ init, decl.init.resolveNames scopes = .ok init) ∧
      scopes.declareVariable (decl.ownSymbol kind) = .ok after := by
  obtain ⟨init, atInit, run⟩ := bind_eq_ok.mp run
  obtain ⟨_, -, run⟩ := bind_eq_ok.mp run
  obtain ⟨_, -, run⟩ := bind_eq_ok.mp run
  obtain ⟨bound, declares, same⟩ := bind_eq_ok.mp run
  cases same
  exact ⟨⟨init, atInit⟩, declares⟩

namespace ForInit.ListedIn

theorem letVar {decl : VarDecl} (whole : (ForInit.letVar decl).ListedIn listed scopes after) :
    decl.init.ListedIn listed scopes ∧
      scopes.declareVariable (decl.ownSymbol .iterator) = .ok after := by
  obtain ⟨_, run⟩ := whole.resolves
  obtain ⟨⟨_, bound⟩, atDecl, same⟩ := bind_eq_ok.mp run
  cases same
  obtain ⟨resolves, declares⟩ := VarDecl.resolveNames_declares atDecl
  exact ⟨⟨resolves, whole.visited⟩, declares⟩

theorem assign {e : Expr} (whole : (ForInit.assign e).ListedIn listed scopes after) :
    after = scopes ∧ e.ListedIn listed scopes := by
  obtain ⟨_, run⟩ := whole.resolves
  obtain ⟨e', atExpr, same⟩ := bind_eq_ok.mp run
  cases same
  exact ⟨rfl, ⟨e', atExpr⟩, whole.visited⟩

end ForInit.ListedIn

namespace Stmt.ListedIn

theorem expr {span : Span} {e : Expr} (whole : (Stmt.expr span e).ListedIn listed scopes after) :
    after = scopes ∧ e.ListedIn listed scopes := by
  obtain ⟨_, run⟩ := whole.resolves
  obtain ⟨e', atExpr, same⟩ := bind_eq_ok.mp run
  cases same
  exact ⟨rfl, ⟨e', atExpr⟩, whole.visited⟩

theorem letVar {span : Span} {decl : VarDecl}
    (whole : (Stmt.letVar span decl).ListedIn listed scopes after) :
    decl.init.ListedIn listed scopes ∧
      scopes.declareVariable (decl.ownSymbol .localVar) = .ok after := by
  obtain ⟨_, run⟩ := whole.resolves
  obtain ⟨⟨_, bound⟩, atDecl, same⟩ := bind_eq_ok.mp run
  cases same
  obtain ⟨resolves, declares⟩ := VarDecl.resolveNames_declares atDecl
  exact ⟨⟨resolves, whole.visited⟩, declares⟩

theorem function {span : Span} {decl : FunctionDecl}
    (whole : (Stmt.function span decl).ListedIn listed scopes after) :
    after = scopes ∧ decl.ListedIn listed scopes := by
  obtain ⟨_, run⟩ := whole.resolves
  obtain ⟨decl', atDecl, same⟩ := bind_eq_ok.mp run
  cases same
  exact ⟨rfl, ⟨decl', atDecl⟩, whole.visited⟩

theorem block {span : Span} {body : Block}
    (whole : (Stmt.block span body).ListedIn listed scopes after) :
    after = scopes ∧ body.ListedIn listed scopes := by
  obtain ⟨_, run⟩ := whole.resolves
  obtain ⟨body', atBody, same⟩ := bind_eq_ok.mp run
  cases same
  exact ⟨rfl, ⟨body', atBody⟩, whole.visited⟩

theorem ifElse {span : Span} {condition : Expr} {thenBranch : Block} {elseBranch : Option Block}
    (whole : (Stmt.ifElse span condition thenBranch elseBranch).ListedIn listed scopes after) :
    after = scopes ∧ condition.ListedIn listed scopes ∧ thenBranch.ListedIn listed scopes ∧
      ∀ body ∈ elseBranch, body.ListedIn listed scopes := by
  obtain ⟨_, run⟩ := whole.resolves
  have visited := whole.visited
  cases elseBranch with
  | none =>
    obtain ⟨condition', atCondition, run⟩ := bind_eq_ok.mp run
    obtain ⟨then', atThen, same⟩ := bind_eq_ok.mp run
    cases same
    obtain ⟨inCondition, inThen⟩ := List.append_subset.mp visited
    exact ⟨rfl, ⟨⟨condition', atCondition⟩, inCondition⟩, ⟨⟨then', atThen⟩, inThen⟩, nofun⟩
  | some body =>
    obtain ⟨condition', atCondition, run⟩ := bind_eq_ok.mp run
    obtain ⟨then', atThen, run⟩ := bind_eq_ok.mp run
    obtain ⟨else', atElse, same⟩ := bind_eq_ok.mp run
    cases same
    obtain ⟨inCondition, visited⟩ := List.append_subset.mp visited
    obtain ⟨inThen, inElse⟩ := List.append_subset.mp visited
    refine ⟨rfl, ⟨⟨condition', atCondition⟩, inCondition⟩, ⟨⟨then', atThen⟩, inThen⟩, ?_⟩
    rintro _ ⟨⟩
    exact ⟨⟨else', atElse⟩, inElse⟩

theorem whileLoop {span : Span} {condition : Expr} {body : Block}
    (whole : (Stmt.whileLoop span condition body).ListedIn listed scopes after) :
    after = scopes ∧ condition.ListedIn listed scopes ∧ body.ListedIn listed scopes := by
  obtain ⟨_, run⟩ := whole.resolves
  obtain ⟨condition', atCondition, run⟩ := bind_eq_ok.mp run
  obtain ⟨body', atBody, same⟩ := bind_eq_ok.mp run
  cases same
  obtain ⟨inCondition, inBody⟩ := List.append_subset.mp whole.visited
  exact ⟨rfl, ⟨⟨condition', atCondition⟩, inCondition⟩, ⟨⟨body', atBody⟩, inBody⟩⟩

theorem forLoop {span : Span} {init : ForInit} {condition step : Expr} {body : Block}
    (whole : (Stmt.forLoop span init condition step body).ListedIn listed scopes after) :
    after = scopes ∧ ∃ inner, init.ListedIn listed scopes.push inner ∧
      condition.ListedIn listed inner ∧ step.ListedIn listed inner ∧ body.ListedIn listed inner := by
  obtain ⟨_, run⟩ := whole.resolves
  obtain ⟨⟨init', inner⟩, atInit, run⟩ := bind_eq_ok.mp run
  obtain ⟨condition', atCondition, run⟩ := bind_eq_ok.mp run
  obtain ⟨step', atStep, run⟩ := bind_eq_ok.mp run
  obtain ⟨body', atBody, same⟩ := bind_eq_ok.mp run
  cases same
  have visited := whole.visited
  simp only [Stmt.visited, atInit] at visited
  obtain ⟨inInit, visited⟩ := List.append_subset.mp visited
  obtain ⟨inCondition, visited⟩ := List.append_subset.mp visited
  obtain ⟨inStep, inBody⟩ := List.append_subset.mp visited
  exact ⟨rfl, inner, ⟨⟨init', atInit⟩, inInit⟩, ⟨⟨condition', atCondition⟩, inCondition⟩,
    ⟨⟨step', atStep⟩, inStep⟩, ⟨⟨body', atBody⟩, inBody⟩⟩

theorem returnValue {span : Span} {value : Option Expr}
    (whole : (Stmt.returnValue span value).ListedIn listed scopes after) :
    after = scopes ∧ ∀ e ∈ value, e.ListedIn listed scopes := by
  obtain ⟨_, run⟩ := whole.resolves
  cases value with
  | none =>
    cases run
    exact ⟨rfl, nofun⟩
  | some e =>
    obtain ⟨e', atExpr, same⟩ := bind_eq_ok.mp run
    cases same
    refine ⟨rfl, ?_⟩
    rintro _ ⟨⟩
    exact ⟨⟨e', atExpr⟩, whole.visited⟩

end Stmt.ListedIn

namespace Stmt.AllListed

/-- Where a list begins, its first functions can be declared. -/
theorem enter {statements : List Stmt} (all : Stmt.AllListed listed scopes false statements) :
    ∃ inner, declareFunctions scopes (leadingFunctions statements) = .ok inner ∧
      Stmt.AllListed listed inner true statements := by
  obtain ⟨_, run⟩ := all.resolves
  rw [Stmt.resolveAll_enter] at run
  obtain ⟨inner, declared, run⟩ := bind_eq_ok.mp run
  exact ⟨inner, declared, ⟨_, run⟩, Stmt.allVisited_enter declared ▸ all.visited⟩

theorem cons {s : Stmt} {rest : List Stmt} (all : Stmt.AllListed listed scopes true (s :: rest)) :
    ∃ after, s.ListedIn listed scopes after ∧ Stmt.AllListed listed after s.isFunction rest := by
  obtain ⟨_, run⟩ := all.resolves
  rw [Stmt.resolveAll_cons] at run
  obtain ⟨⟨s', after⟩, atHead, run⟩ := bind_eq_ok.mp run
  obtain ⟨rest', atRest, -⟩ := bind_eq_ok.mp run
  have visited := all.visited
  rw [Stmt.allVisited_cons rest atHead] at visited
  obtain ⟨inHead, inRest⟩ := List.append_subset.mp visited
  exact ⟨after, ⟨⟨s', atHead⟩, inHead⟩, ⟨⟨rest', atRest⟩, inRest⟩⟩

/-- The functions of a run are resolved in the same scopes. -/
theorem leading {statements : List Stmt} (all : Stmt.AllListed listed scopes true statements) :
    ∀ decl ∈ leadingFunctions statements, decl.ListedIn listed scopes := by
  induction statements with
  | nil => exact List.forall_mem_nil _
  | cons s rest ih =>
    cases s with
    | function span decl =>
      obtain ⟨after, atHead, later⟩ := all.cons
      obtain ⟨rfl, atDecl⟩ := atHead.function
      exact List.forall_mem_cons.mpr ⟨atDecl, ih later⟩
    | expr | letVar | block | ifElse | whileLoop | forLoop | breakLoop | continueLoop
    | returnValue => exact List.forall_mem_nil _

end Stmt.AllListed

theorem Block.ListedIn.statements {body : Block} (whole : body.ListedIn listed scopes) :
    Stmt.AllListed listed scopes.push false body.statements := by
  obtain ⟨_, run⟩ := whole.resolves
  cases body
  obtain ⟨statements', atStatements, -⟩ := bind_eq_ok.mp run
  exact ⟨⟨statements', atStatements⟩, whole.visited⟩

theorem resolveParams_names {params params' : List Param} {bindings : List VariableSymbol}
    (run : resolveParams scopes params = .ok (params', bindings)) :
    bindings.map VariableSymbol.name = params.map Param.name := by
  induction params generalizing params' bindings with
  | nil =>
    cases run
    rfl
  | cons param rest ih =>
    obtain ⟨_, -, run⟩ := bind_eq_ok.mp run
    obtain ⟨_, -, run⟩ := bind_eq_ok.mp run
    obtain ⟨⟨_, later⟩, atRest, same⟩ := bind_eq_ok.mp run
    cases same
    exact congrArg (param.name :: ·) (ih atRest)

/-- The symbol of a function says what its header says. -/
theorem FunctionDecl.resolveHeader_symbol {decl header : FunctionDecl} {function : FunctionSymbol}
    (run : decl.resolveHeader scopes = .ok (header, function)) :
    function.id = decl.id ∧ function.name = decl.name ∧ function.span = decl.nameSpan ∧
      function.params.map VariableSymbol.name = decl.params.map Param.name := by
  obtain ⟨⟨_, bindings⟩, atParams, run⟩ := bind_eq_ok.mp run
  obtain ⟨_, -, run⟩ := bind_eq_ok.mp run
  obtain ⟨_, -, run⟩ := bind_eq_ok.mp run
  cases run
  exact ⟨rfl, rfl, rfl, resolveParams_names atParams⟩

/-- The body of a function is resolved in scopes that declare its parameters. -/
theorem FunctionDecl.ListedIn.body {decl : FunctionDecl} (whole : decl.ListedIn listed scopes) :
    ∃ bindings inner, bindings.map VariableSymbol.name = decl.params.map Param.name ∧
      declareVariables scopes.push bindings = .ok inner ∧ decl.body.ListedIn listed inner := by
  obtain ⟨_, run⟩ := whole.resolves
  have visited := whole.visited
  cases decl
  obtain ⟨⟨header, function⟩, atHeader, run⟩ := bind_eq_ok.mp run
  obtain ⟨inner, declares, run⟩ := bind_eq_ok.mp run
  obtain ⟨body', atBody, -⟩ := bind_eq_ok.mp run
  simp only [FunctionDecl.visited, atHeader, declares] at visited
  obtain ⟨-, -, -, names⟩ := FunctionDecl.resolveHeader_symbol atHeader
  exact ⟨function.params, inner, names, declares, ⟨body', atBody⟩, visited⟩

theorem Program.resolveNames_listed {natives : List NativeSignature} {program named : Program}
    (run : program.resolveNames natives = .ok named) :
    Stmt.AllListed (program.visited natives) (.ofNatives natives) false program.statements := by
  obtain ⟨statements, atStatements, -⟩ := Program.resolveNames_eq_ok.mp run
  exact ⟨⟨statements, atStatements⟩, List.Subset.refl _⟩

end Lu
