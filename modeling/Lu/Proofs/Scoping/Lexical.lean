import Lu.Proofs.Scoping.Resolved
import Lu.Proofs.Tree.Blank

namespace Lu

/-!
Lexical scoping, said of the tree alone. Each declaration has one symbol, each point of the tree
sees some declarations of every scope around it, and a name means the innermost one that is seen.
-/

/-- The names of types that an annotation can have. -/
def typeWords : List String := ["int", "float", "str", "void"]

/-- The type that an annotation names. -/
def TypeName.meaning (typeName : TypeName) : Ty := (Ty.ofName? typeName.name).getD .void

/-- The symbol of a variable that `let` or the header of `for` declares. -/
def VarDecl.ownSymbol (kind : VariableKind) (decl : VarDecl) : VariableSymbol :=
  ⟨decl.name, decl.nameSpan, kind, .unset⟩

def Param.ownSymbol (param : Param) : VariableSymbol :=
  ⟨param.name, param.span, .parameter, ⟨some param.typeName.meaning⟩⟩

/-- The symbol of a function. Its result is `void` without an annotation. -/
def FunctionDecl.ownSymbol (decl : FunctionDecl) : FunctionSymbol :=
  ⟨decl.id, decl.name, decl.nameSpan, decl.params.map Param.ownSymbol,
    (decl.resultName.map TypeName.meaning).getD .void⟩

/-- What a scope shows at some point: names with what they stand for. -/
abbrev Shown := List (String × Declaration)

def Shown.names (shown : Shown) : List String := shown.map Prod.fst

def FunctionDecl.shown (decl : FunctionDecl) : String × Declaration :=
  (decl.name, .function (.user decl.ownSymbol))

def Param.shown (param : Param) : String × Declaration := (param.name, .variable param.ownSymbol)

def ForInit.shown : ForInit → Shown
  | .letVar decl => [(decl.name, .variable (decl.ownSymbol .iterator))]
  | .assign _ => []

/-- What a statement declares for those after it. -/
def Stmt.shown : Stmt → Shown
  | .letVar _ decl => [(decl.name, .variable (decl.ownSymbol .localVar))]
  | .function _ decl => [decl.shown]
  | _ => []

/-- What a list of statements shows at one of them: what the statements before it declare and, if it
is a function, that function and those that follow it without another statement in between. -/
def visible (earlier : Shown) (following : List Stmt) : Shown :=
  earlier ++ (leadingFunctions following).map FunctionDecl.shown

/-- The name stands for the declaration in the innermost of the scopes that shows the name. -/
def Denotes (around : List Shown) (name : String) (declaration : Declaration) : Prop :=
  ∃ inner shown outer, around = inner ++ shown :: outer ∧
    (∀ nearer ∈ inner, name ∉ Shown.names nearer) ∧ (name, declaration) ∈ shown

/-- The places of a program that scoping is about, with what is stored there. -/
inductive Site where
  /-- A scope, by the names that it declares. -/
  | scope (names : List String)
  | typeWord (typeName : TypeName)
  | declaration (own : Declaration) (stored : Option Declaration)
  /-- A reference to a variable, with the scopes around it, the innermost first. -/
  | reference (around : List Shown) (name : String) (stored : Option VariableSymbol)
  | call (around : List Shown) (name : String) (stored : Option Callee)

/-- What scoping asks of a program at each place. -/
def Site.Sound : Site → Prop
  | .scope names => names.Nodup
  | .typeWord typeName => typeName.name ∈ typeWords
  | .declaration .. => True
  | .reference around name _ => ∃ symbol, Denotes around name (.variable symbol)
  | .call around name _ => ∃ callee, Denotes around name (.function callee)

/-- The place holds the declaration that it makes, or the only one that its name stands for. -/
def Site.Filled : Site → Prop
  | .scope _ | .typeWord _ => True
  | .declaration own stored => stored = some own
  | .reference around name stored => ∃ symbol, stored = some symbol ∧
    ∀ declaration, Denotes around name declaration ↔ declaration = .variable symbol
  | .call around name stored => ∃ callee, stored = some callee ∧
    ∀ declaration, Denotes around name declaration ↔ declaration = .function callee

def Expr.sites (around : List Shown) : Expr → List Site
  | .literal .. => []
  | .variable _ name symbol => [.reference around name symbol.value?]
  | .assign _ target value => target.sites around ++ value.sites around
  | .binary _ _ left right => left.sites around ++ right.sites around
  | .unary _ _ operand => operand.sites around
  | .call _ name _ args callee => allSites around args ++ [.call around name callee.value?]
where
  allSites (around : List Shown) : List Expr → List Site
    | [] => []
    | e :: rest => e.sites around ++ allSites around rest

/-- A variable is not visible in its own initial value. -/
def VarDecl.sites (around : List Shown) (kind : VariableKind) (decl : VarDecl) : List Site :=
  decl.init.sites around ++ decl.typeName.toList.map Site.typeWord ++
    [.declaration (.variable (decl.ownSymbol kind)) (decl.symbol.value?.map .variable)]

def ForInit.sites (around : List Shown) : ForInit → List Site
  | .letVar decl => decl.sites around .iterator
  | .assign e => e.sites around

def Param.sites (param : Param) : List Site :=
  [.typeWord param.typeName,
    .declaration (.variable param.ownSymbol) (param.symbol.value?.map .variable)]

/-- The places of a function outside its body. -/
def FunctionDecl.headerSites (decl : FunctionDecl) : List Site :=
  .declaration (.function (.user decl.ownSymbol))
      (decl.symbol.value?.map fun symbol => .function (.user symbol)) ::
    decl.params.flatMap Param.sites ++ decl.resultName.toList.map Site.typeWord

mutual

def Stmt.sites (around : List Shown) : Stmt → List Site
  | .expr _ e => e.sites around
  | .letVar _ decl => decl.sites around .localVar
  | .function _ decl => decl.sites around
  | .block _ body => body.sites around
  | .ifElse _ condition thenBranch none => condition.sites around ++ thenBranch.sites around
  | .ifElse _ condition thenBranch (some elseBranch) =>
    condition.sites around ++ thenBranch.sites around ++ elseBranch.sites around
  | .whileLoop _ condition body => condition.sites around ++ body.sites around
  | .forLoop _ init condition step body =>
    let inner := init.shown :: around
    .scope init.shown.names :: init.sites ([] :: around) ++ condition.sites inner ++
      step.sites inner ++ body.sites inner
  | .breakLoop _ | .continueLoop _ | .returnValue _ none => []
  | .returnValue _ (some value) => value.sites around

/-- The places in some statements of a list; `earlier` is what those before them declare. -/
def Stmt.allSites (around : List Shown) (earlier : Shown) : List Stmt → List Site
  | [] => []
  | s :: rest =>
    s.sites (visible earlier (s :: rest) :: around) ++
      Stmt.allSites around (earlier ++ s.shown) rest

def Block.sites (around : List Shown) : Block → List Site
  | ⟨_, statements⟩ =>
    .scope (Shown.names (statements.flatMap Stmt.shown)) :: Stmt.allSites around [] statements

/-- The parameters have a scope of their own around that of the body. -/
def FunctionDecl.sites (around : List Shown) : FunctionDecl → List Site
  | ⟨id, name, nameSpan, params, resultName, body, span, symbol⟩ =>
    FunctionDecl.headerSites ⟨id, name, nameSpan, params, resultName, body, span, symbol⟩ ++
      .scope (params.map Param.name) :: body.sites (params.map Param.shown :: around)

end

/-- The outermost scope shows the built-in functions. -/
def nativesShown (natives : List NativeSignature) : Shown :=
  natives.map fun native => (native.name, .function (.native native))

def Program.sites (natives : List NativeSignature) (program : Program) : List Site :=
  .scope (Shown.names (program.statements.flatMap Stmt.shown)) ::
    Stmt.allSites [nativesShown natives] [] program.statements

/-- The program obeys lexical scoping. -/
def Program.LexicallyScoped (natives : List NativeSignature) (program : Program) : Prop :=
  ∀ site ∈ program.sites natives, site.Sound

end Lu
