import Lu.Proofs.Except
import Lu.Proofs.Scoping.Plain

namespace Lu

/-!
Scopes of a resolved tree. The tree carries the symbols that its declarations got, so the scopes
around each of its parts can be read off it again, and every reference can be compared with what its
name means there.
-/

/-- The symbol of a declared variable. -/
def VarDecl.binding (decl : VarDecl) : VariableSymbol :=
  decl.symbol.value?.getD ⟨decl.name, decl.nameSpan, .localVar, .unset⟩

def Param.binding (param : Param) : VariableSymbol :=
  param.symbol.value?.getD ⟨param.name, param.span, .parameter, .unset⟩

def FunctionDecl.binding (decl : FunctionDecl) : FunctionSymbol :=
  decl.symbol.value?.getD
    ⟨decl.id, decl.name, decl.nameSpan, decl.params.map Param.binding, .void⟩

def Stmt.isFunction : Stmt → Bool
  | .function .. => true
  | _ => false

theorem leadingFunctions_eq_nil {s : Stmt} (rest : List Stmt) (other : s.isFunction = false) :
    leadingFunctions (s :: rest) = [] := by
  cases s <;> simp_all [leadingFunctions, Stmt.isFunction]

namespace Scopes

/-- Makes a name of the innermost scope mean a declaration, whatever it meant before. -/
def bind (scopes : Scopes) (name : String) (declaration : Declaration) : Scopes :=
  match scopes.tables with
  | inner :: outer => ⟨{ inner with values := (name, declaration) :: inner.values } :: outer⟩
  | [] => ⟨[{ values := [(name, declaration)] }]⟩

/-- The innermost scope does not declare the name. -/
def IsNew (scopes : Scopes) (name : String) : Prop :=
  (scopes.tables.head?.bind (·.values.lookup name)) = none

def bindFunctions (scopes : Scopes) (decls : List FunctionDecl) : Scopes :=
  decls.foldl (fun scopes decl => scopes.bind decl.name (.function (.user decl.binding))) scopes

def bindParams (scopes : Scopes) (params : List Param) : Scopes :=
  params.foldl (fun scopes param => scopes.bind param.name (.variable param.binding)) scopes

/-- The scopes in which the first of some statements stands. The functions that the list begins
with are visible there; inside a run of functions they are bound already. -/
def entering (scopes : Scopes) (inRun : Bool) (statements : List Stmt) : Scopes :=
  if inRun then scopes else scopes.bindFunctions (leadingFunctions statements)

/-- The scopes after a statement. -/
def after (scopes : Scopes) : Stmt → Scopes
  | .letVar _ decl => scopes.bind decl.name (.variable decl.binding)
  | _ => scopes

/-- The scopes in the rest of a loop header and in the loop. -/
def afterInit (scopes : Scopes) : ForInit → Scopes
  | .letVar decl => scopes.bind decl.name (.variable decl.binding)
  | .assign _ => scopes

theorem entering_plain {s : Stmt} (scopes : Scopes) (inRun : Bool) (rest : List Stmt)
    (plain : s.isFunction = false) : scopes.entering inRun (s :: rest) = scopes := by
  cases inRun <;> simp [entering, leadingFunctions_eq_nil rest plain, bindFunctions]

theorem declare_eq_ok {scopes bound : Scopes} {name : String} {declaration : Declaration}
    {span : Span} :
    scopes.declare name declaration span = .ok bound ↔
      scopes.IsNew name ∧ bound = scopes.bind name declaration := by
  rcases scopes with ⟨_ | ⟨inner, outer⟩⟩
  · simp [declare, SymbolTable.declare, IsNew, bind, Functor.map, Except.map, eq_comm]
  · cases known : inner.values.lookup name <;>
      simp [declare, SymbolTable.declare, IsNew, bind, Check.fail, Functor.map, Except.map, known,
        eq_comm]

theorem findVariable_eq_ok {scopes : Scopes} {name : String} {span : Span}
    {symbol : VariableSymbol} :
    scopes.findVariable name span = .ok symbol ↔ scopes.lookup name = some (.variable symbol) := by
  unfold findVariable
  split <;> simp_all

theorem findFunction_eq_ok {scopes : Scopes} {name : String} {span : Span} {callee : Callee} :
    scopes.findFunction name span = .ok callee ↔ scopes.lookup name = some (.function callee) := by
  unfold findFunction
  split <;> simp_all

end Scopes

/-- Every reference carries what its name means in the scopes. -/
inductive Expr.Resolved (scopes : Scopes) : Expr → Prop
  | literal {note value} : Resolved scopes (.literal note value)
  | variable {note name symbol s} : scopes.lookup name = some (.variable s) →
      symbol.value? = some s → Resolved scopes (.variable note name symbol)
  | assign {note target value} : Resolved scopes target → Resolved scopes value →
      Resolved scopes (.assign note target value)
  | binary {note op left right} : Resolved scopes left → Resolved scopes right →
      Resolved scopes (.binary note op left right)
  | unary {note op operand} : Resolved scopes operand → Resolved scopes (.unary note op operand)
  | call {note name nameSpan args callee c} : (∀ arg ∈ args, Resolved scopes arg) →
      scopes.lookup name = some (.function c) → callee.value? = some c →
      Resolved scopes (.call note name nameSpan args callee)

/-- The symbol of the variable is set, and its name is new in the innermost scope. -/
structure VarDecl.Resolved (scopes : Scopes) (kind : VariableKind) (decl : VarDecl) : Prop where
  init : decl.init.Resolved scopes
  symbol : decl.symbol.value? = some decl.binding
  name : decl.binding.name = decl.name
  kind : decl.binding.kind = kind
  isNew : scopes.IsNew decl.name

def ForInit.Resolved (scopes : Scopes) : ForInit → Prop
  | .letVar decl => decl.Resolved scopes .iterator
  | .assign e => e.Resolved scopes

/-- The symbol of a parameter has a type from the start. -/
structure Param.Resolved (param : Param) : Prop where
  name : param.binding.name = param.name
  type : param.binding.type.isSet = true

/-- The symbol of a function says what its header says. -/
structure FunctionDecl.HeaderResolved (decl : FunctionDecl) : Prop where
  symbol : decl.symbol.value? = some decl.binding
  id : decl.binding.id = decl.id
  name : decl.binding.name = decl.name
  params : decl.binding.params = decl.params.map Param.binding
  eachParam : ∀ param ∈ decl.params, param.Resolved
  distinct : (decl.params.map Param.name).Nodup

mutual

def Stmt.Resolved (scopes : Scopes) : Stmt → Prop
  | .expr _ e => e.Resolved scopes
  | .letVar _ decl => decl.Resolved scopes .localVar
  | .function _ decl => decl.Resolved scopes
  | .block _ body => body.Resolved scopes
  | .ifElse _ condition thenBranch none =>
    condition.Resolved scopes ∧ thenBranch.Resolved scopes
  | .ifElse _ condition thenBranch (some elseBranch) =>
    condition.Resolved scopes ∧ thenBranch.Resolved scopes ∧ elseBranch.Resolved scopes
  | .whileLoop _ condition body => condition.Resolved scopes ∧ body.Resolved scopes
  | .forLoop _ init condition step body =>
    let inner := scopes.push.afterInit init
    init.Resolved scopes.push ∧ condition.Resolved inner ∧ step.Resolved inner ∧
      body.Resolved inner
  | .breakLoop _ | .continueLoop _ | .returnValue _ none => True
  | .returnValue _ (some value) => value.Resolved scopes

/-- A statement is resolved in the scopes that those before it leave. The functions of a run are
bound together, under names that are new. -/
def Stmt.AllResolved (scopes : Scopes) (inRun : Bool) : List Stmt → Prop
  | [] => True
  | s :: rest =>
    let inner := scopes.entering inRun (s :: rest)
    (inRun = false → ∀ decl ∈ leadingFunctions (s :: rest), scopes.IsNew decl.name) ∧
      s.Resolved inner ∧ Stmt.AllResolved (inner.after s) s.isFunction rest

def Block.Resolved (scopes : Scopes) : Block → Prop
  | ⟨_, statements⟩ => Stmt.AllResolved scopes.push false statements

/-- The parameters have a scope of their own around that of the body. -/
def FunctionDecl.Resolved (scopes : Scopes) : FunctionDecl → Prop
  | ⟨id, name, nameSpan, params, resultName, body, span, symbol⟩ =>
    FunctionDecl.HeaderResolved ⟨id, name, nameSpan, params, resultName, body, span, symbol⟩ ∧
      body.Resolved (scopes.push.bindParams params)

end

def Program.Resolved (natives : List NativeSignature) (program : Program) : Prop :=
  Stmt.AllResolved (Scopes.ofNatives natives) false program.statements

end Lu
