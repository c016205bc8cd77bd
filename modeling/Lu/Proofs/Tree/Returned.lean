import Lu.Tree.Basic

namespace Lu

/-!
What the body of a function returns.
-/

mutual

/-- What stands after each `return` of a statement, but for those of functions declared inside it. -/
def Stmt.returned : Stmt → List (Option Expr)
  | .returnValue _ value => [value]
  | .block _ body | .whileLoop _ _ body | .forLoop _ _ _ _ body => body.returned
  | .ifElse _ _ thenBranch none => thenBranch.returned
  | .ifElse _ _ thenBranch (some elseBranch) => thenBranch.returned ++ elseBranch.returned
  | .expr .. | .letVar .. | .function .. | .breakLoop _ | .continueLoop _ => []

def Stmt.allReturned : List Stmt → List (Option Expr)
  | [] => []
  | s :: rest => s.returned ++ Stmt.allReturned rest

def Block.returned : Block → List (Option Expr)
  | ⟨_, statements⟩ => Stmt.allReturned statements

end

end Lu
