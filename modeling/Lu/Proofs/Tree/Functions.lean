import Lu.Tree.Basic

namespace Lu

mutual

/-- The functions declared in a statement, at any depth, in the order in which their bodies are
closed. -/
def Stmt.functions : Stmt → List FunctionDecl
  | .function _ decl => decl.functions
  | .block _ body | .whileLoop _ _ body | .forLoop _ _ _ _ body => body.functions
  | .ifElse _ _ thenBranch none => thenBranch.functions
  | .ifElse _ _ thenBranch (some elseBranch) => thenBranch.functions ++ elseBranch.functions
  | .expr .. | .letVar .. | .breakLoop _ | .continueLoop _ | .returnValue .. => []

def Stmt.allFunctions : List Stmt → List FunctionDecl
  | [] => []
  | s :: rest => s.functions ++ Stmt.allFunctions rest

def Block.functions : Block → List FunctionDecl
  | ⟨_, statements⟩ => Stmt.allFunctions statements

def FunctionDecl.functions : FunctionDecl → List FunctionDecl
  | ⟨id, name, nameSpan, params, resultName, body, span, symbol⟩ =>
    body.functions ++ [⟨id, name, nameSpan, params, resultName, body, span, symbol⟩]

end

@[simp] theorem Stmt.functions_ifElse (span : Span) (condition : Expr) (thenBranch : Block)
    (elseBranch : Option Block) :
    (Stmt.ifElse span condition thenBranch elseBranch).functions =
      thenBranch.functions ++ (elseBranch.map Block.functions).getD [] := by
  cases elseBranch with
  | none => exact (List.append_nil _).symm
  | some body => rfl

def Program.functions (program : Program) : List FunctionDecl :=
  Stmt.allFunctions program.statements

/-- The numbers of the functions of a program. -/
def Program.functionIds (program : Program) : List Nat := program.functions.map FunctionDecl.id

/-- What a function declares inside comes before it. -/
theorem FunctionDecl.functions_eq (decl : FunctionDecl) :
    decl.functions = decl.body.functions ++ [decl] := by
  cases decl
  rfl

section Nested

variable {functions later : List FunctionDecl}

/-- With each function of the list the functions inside it stand there too, right in front of it. -/
def Complete (functions : List FunctionDecl) : Prop :=
  ∀ decl ∈ functions, decl.functions <:+: functions

theorem Complete.append (first : Complete functions) (second : Complete later) :
    Complete (functions ++ later) := by
  intro decl member
  rcases List.mem_append.mp member with member | member
  · exact (first decl member).trans (List.prefix_append ..).isInfix
  · exact (second decl member).trans (List.suffix_append ..).isInfix

mutual

theorem Stmt.functions_complete : ∀ s : Stmt, Complete s.functions
  | .function _ decl => decl.functions_complete
  | .block _ body | .whileLoop _ _ body | .forLoop _ _ _ _ body => body.functions_complete
  | .ifElse _ _ thenBranch none => thenBranch.functions_complete
  | .ifElse _ _ thenBranch (some elseBranch) =>
    thenBranch.functions_complete.append elseBranch.functions_complete
  | .expr .. | .letVar .. | .breakLoop _ | .continueLoop _ | .returnValue .. => nofun

theorem Stmt.allFunctions_complete : ∀ statements, Complete (Stmt.allFunctions statements)
  | [] => nofun
  | s :: rest => s.functions_complete.append (Stmt.allFunctions_complete rest)

theorem Block.functions_complete : ∀ body : Block, Complete body.functions
  | ⟨_, statements⟩ => Stmt.allFunctions_complete statements

theorem FunctionDecl.functions_complete : ∀ decl : FunctionDecl, Complete decl.functions
  | ⟨id, name, nameSpan, params, resultName, body, span, symbol⟩ => by
    intro other member
    rcases List.mem_append.mp member with member | member
    · exact (body.functions_complete other member).trans (List.prefix_append ..).isInfix
    · obtain rfl := List.mem_singleton.mp member
      exact List.infix_rfl

end

/-- Where the numbers increase, a function has a greater one than those inside it. -/
theorem Complete.id_lt (complete : Complete functions)
    (increasing : functions.Pairwise fun first later => first.id < later.id)
    {decl inner : FunctionDecl} (member : decl ∈ functions) (inside : inner ∈ decl.body.functions) :
    inner.id < decl.id := by
  have own := increasing.sublist (complete decl member).sublist
  rw [FunctionDecl.functions_eq] at own
  exact (List.pairwise_append.mp own).2.2 inner inside decl (List.mem_singleton_self _)

end Nested

end Lu
