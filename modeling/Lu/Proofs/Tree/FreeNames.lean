import Lu.Tree.Basic

namespace Lu

/-!
Names that a part of a program uses for variables but does not bind. A running program looks a
variable up by its name, so a `let` that comes between a function and the variable it means can
capture the reference.
-/

/-- The variables that an expression refers to or assigns. -/
def Expr.names : Expr → List String
  | .literal .. => []
  | .variable _ name _ => [name]
  | .assign _ target value => target.names ++ value.names
  | .binary _ _ left right => left.names ++ right.names
  | .unary _ _ operand => operand.names
  | .call _ _ _ args _ => allNames args
where
  allNames : List Expr → List String
    | [] => []
    | e :: rest => e.names ++ allNames rest

theorem Expr.mem_allNames {args : List Expr} {name : String} :
    name ∈ Expr.names.allNames args ↔ ∃ arg ∈ args, name ∈ arg.names := by
  induction args with
  | nil => simp [names.allNames]
  | cons e rest ih => simp [names.allNames, ih]

/-- Those of the names that the list of bound names leaves free. -/
def namesExcept (names bound : List String) : List String := names.filter (· ∉ bound)

@[simp] theorem mem_namesExcept {names bound : List String} {name : String} :
    name ∈ namesExcept names bound ↔ name ∈ names ∧ name ∉ bound := by
  simp [namesExcept]

theorem eq_or_mem_namesExcept {names before : List String} {bound name : String}
    (member : name ∈ names) : name = bound ∨ name ∈ before ++ namesExcept names [bound] := by
  by_cases same : name = bound
  · exact .inl same
  · exact .inr (List.mem_append_right _ (mem_namesExcept.mpr ⟨member, by simpa using same⟩))

/-- The variables that a statement binds for those after it. -/
def Stmt.bound : Stmt → List String
  | .letVar _ decl => [decl.name]
  | _ => []

def ForInit.bound : ForInit → List String
  | .letVar decl => [decl.name]
  | .assign _ => []

def ForInit.names : ForInit → List String
  | .letVar decl => decl.init.names
  | .assign e => e.names

mutual

def Stmt.freeNames : Stmt → List String
  | .expr _ e => e.names
  | .letVar _ decl => decl.init.names
  | .function _ decl => decl.freeNames
  | .block _ body => body.freeNames
  | .ifElse _ condition thenBranch none => condition.names ++ thenBranch.freeNames
  | .ifElse _ condition thenBranch (some elseBranch) =>
    condition.names ++ thenBranch.freeNames ++ elseBranch.freeNames
  | .whileLoop _ condition body => condition.names ++ body.freeNames
  | .forLoop _ init condition step body =>
    init.names ++ namesExcept (condition.names ++ step.names ++ body.freeNames) init.bound
  | .breakLoop _ | .continueLoop _ | .returnValue _ none => []
  | .returnValue _ (some value) => value.names

def Stmt.allFreeNames : List Stmt → List String
  | [] => []
  | s :: rest => s.freeNames ++ namesExcept (Stmt.allFreeNames rest) s.bound

def Block.freeNames : Block → List String
  | ⟨_, statements⟩ => Stmt.allFreeNames statements

def FunctionDecl.freeNames : FunctionDecl → List String
  | ⟨_, _, _, params, _, body, _, _⟩ => namesExcept body.freeNames (params.map Param.name)

end

/-- No statement of a list binds a name that is free in the function before it. -/
def Stmt.leavesAlone (s : Stmt) (rest : List Stmt) : Bool :=
  match s with
  | .function _ decl => rest.all fun later => later.bound.all (· ∉ decl.freeNames)
  | _ => true

mutual

/-- After a function no `let` of the same list of statements binds a name that is free in the
function, nor does one at any depth. -/
def Stmt.uncaptured : Stmt → Bool
  | .function _ decl => decl.uncaptured
  | .block _ body | .whileLoop _ _ body | .forLoop _ _ _ _ body => body.uncaptured
  | .ifElse _ _ thenBranch none => thenBranch.uncaptured
  | .ifElse _ _ thenBranch (some elseBranch) => thenBranch.uncaptured && elseBranch.uncaptured
  | .expr .. | .letVar .. | .breakLoop _ | .continueLoop _ | .returnValue .. => true

def Stmt.allUncaptured : List Stmt → Bool
  | [] => true
  | s :: rest => s.uncaptured && s.leavesAlone rest && Stmt.allUncaptured rest

def Block.uncaptured : Block → Bool
  | ⟨_, statements⟩ => Stmt.allUncaptured statements

def FunctionDecl.uncaptured : FunctionDecl → Bool
  | ⟨_, _, _, _, _, body, _, _⟩ => body.uncaptured

end

def Program.uncaptured (program : Program) : Bool := Stmt.allUncaptured program.statements

end Lu
