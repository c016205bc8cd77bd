import Lu.Tree.Basic
import Lu.Value.Listing

namespace Lu

/-!
The listing of a tree names every node and every part of it. It is made for trees as they are
read: a slot that is filled shows its value in a word.
-/

namespace Listing

def ofSpan (span : Span) : Listing := word span.text

def ofName (name : String) : Listing := word (listingQuoted name)

def ofSlot {name : String} {α : Type} (text : α → String) (slot : Attribute name α) : Listing :=
  word (slot.describe text)

end Listing

def BinaryOp.listing : BinaryOp → Listing
  | .or => .word "Or"
  | .and => .word "And"
  | .equal => .word "Eq"
  | .notEqual => .word "NotEq"
  | .less => .word "Lt"
  | .lessEqual => .word "LtEq"
  | .greater => .word "Gt"
  | .greaterEqual => .word "GtEq"
  | .add => .word "Add"
  | .sub => .word "Sub"
  | .mul => .word "Mul"
  | .div => .word "Div"
  | .mod => .word "Mod"
  | .pow => .word "Pow"

def UnaryOp.listing : UnaryOp → Listing
  | .neg => .word "Neg"
  | .plus => .word "Plus"
  | .not => .word "Not"

/-- An expression of the given kind. -/
def ExprNote.listing (note : ExprNote) (kind : Listing) : Listing :=
  .record "Expr" [("kind", kind), ("span", .ofSpan note.span), ("ty", .ofSlot Ty.name note.type)]

def Expr.listing : Expr → Listing
  | .literal note value => note.listing (.tagged "Literal" value.listing)
  | .variable note name symbol =>
    note.listing (.tagged "Variable" (.record "VariableRef"
      [("name", .ofName name), ("symbol", .ofSlot VariableSymbol.name symbol)]))
  | .assign note target value =>
    note.listing (.record "Assign" [("target", target.listing), ("value", value.listing)])
  | .binary note op left right =>
    note.listing (.record "Binary"
      [("op", op.listing), ("left", left.listing), ("right", right.listing)])
  | .unary note op operand =>
    note.listing (.record "Unary" [("op", op.listing), ("operand", operand.listing)])
  | .call note name nameSpan args callee =>
    note.listing (.tagged "Call" (.record "CallExpr"
      [("name", .ofName name), ("name_span", .ofSpan nameSpan), ("args", .list (listings args)),
       ("callee", .ofSlot Callee.name callee)]))
where
  listings : List Expr → List Listing
    | [] => []
    | e :: rest => e.listing :: listings rest

def TypeName.listing (typeName : TypeName) : Listing :=
  .record "TypeAnnotation"
    [("name", .ofName typeName.name), ("span", .ofSpan typeName.span)]

def VarDecl.listing (decl : VarDecl) : Listing :=
  .record "VarDecl"
    [("name", .ofName decl.name), ("name_span", .ofSpan decl.nameSpan),
     ("annotation", .ofOption TypeName.listing decl.typeName), ("init", decl.init.listing),
     ("declared_ty", .ofSlot Ty.name decl.declared),
     ("symbol", .ofSlot VariableSymbol.name decl.symbol)]

def Param.listing (param : Param) : Listing :=
  .record "Param"
    [("name", .ofName param.name), ("span", .ofSpan param.span),
     ("annotation", param.typeName.listing),
     ("symbol", .ofSlot VariableSymbol.name param.symbol)]

def ForInit.listing : ForInit → Listing
  | .letVar decl => .tagged "Let" decl.listing
  | .assign e => .tagged "Assign" e.listing

/-- A statement of the given kind. -/
def Span.stmtListing (span : Span) (kind : Listing) : Listing :=
  .record "Stmt" [("kind", kind), ("span", .ofSpan span)]

/-- An `if` with the listing of its other branch. -/
def ifListing (condition thenBranch elseBranch : Listing) : Listing :=
  .tagged "If" (.record "IfStmt"
    [("condition", condition), ("then_branch", thenBranch), ("else_branch", elseBranch)])

mutual

def Stmt.listing : Stmt → Listing
  | .expr span e => span.stmtListing (.tagged "Expr" e.listing)
  | .letVar span decl => span.stmtListing (.tagged "Let" decl.listing)
  | .function span decl => span.stmtListing (.tagged "Function" decl.listing)
  | .block span body => span.stmtListing (.tagged "Block" body.listing)
  | .ifElse span condition thenBranch none =>
    span.stmtListing (ifListing condition.listing thenBranch.listing (.word "None"))
  | .ifElse span condition thenBranch (some elseBranch) =>
    span.stmtListing
      (ifListing condition.listing thenBranch.listing (.tagged "Some" elseBranch.listing))
  | .whileLoop span condition body =>
    span.stmtListing (.tagged "While" (.record "WhileStmt"
      [("condition", condition.listing), ("body", body.listing)]))
  | .forLoop span init condition step body =>
    span.stmtListing (.tagged "For" (.record "ForStmt"
      [("init", init.listing), ("condition", condition.listing), ("step", step.listing),
       ("body", body.listing)]))
  | .breakLoop span => span.stmtListing (.word "Break")
  | .continueLoop span => span.stmtListing (.word "Continue")
  | .returnValue span value =>
    span.stmtListing (.tagged "Return" (.ofOption Expr.listing value))

def Stmt.listings : List Stmt → List Listing
  | [] => []
  | s :: rest => s.listing :: Stmt.listings rest

def Block.listing : Block → Listing
  | ⟨span, statements⟩ =>
    .record "Block" [("statements", .list (Stmt.listings statements)), ("span", .ofSpan span)]

def FunctionDecl.listing : FunctionDecl → Listing
  | ⟨id, name, nameSpan, params, resultName, body, span, symbol⟩ =>
    .record "FunctionDecl"
      [("id", .tagged "FunctionId" (.word (toString id))), ("name", .ofName name),
       ("name_span", .ofSpan nameSpan), ("params", .list (params.map Param.listing)),
       ("return_annotation", .ofOption TypeName.listing resultName), ("body", body.listing),
       ("span", .ofSpan span), ("symbol", .ofSlot FunctionSymbol.name symbol)]

end

def Program.listing (program : Program) : Listing :=
  .record "Program"
    [("statements", .list (Stmt.listings program.statements)), ("span", .ofSpan program.span)]

end Lu
