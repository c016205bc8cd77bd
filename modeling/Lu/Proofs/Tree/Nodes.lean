import Lu.Proofs.Tree.Blank

namespace Lu

/-!
The nodes of a tree that have slots.
-/

inductive Node where
  | expr (e : Expr)
  /-- A variable that `let` or the header of `for` declares. -/
  | variable (decl : VarDecl)
  /-- A function with its parameters. -/
  | function (decl : FunctionDecl)

def Expr.nodes : Expr → List Node
  | .literal note value => [.expr (.literal note value)]
  | .variable note name symbol => [.expr (.variable note name symbol)]
  | .assign note target value =>
    .expr (.assign note target value) :: (target.nodes ++ value.nodes)
  | .binary note op left right => .expr (.binary note op left right) :: (left.nodes ++ right.nodes)
  | .unary note op operand => .expr (.unary note op operand) :: operand.nodes
  | .call note name nameSpan args callee =>
    .expr (.call note name nameSpan args callee) :: allNodes args
where
  allNodes : List Expr → List Node
    | [] => []
    | e :: rest => e.nodes ++ allNodes rest

def VarDecl.nodes (decl : VarDecl) : List Node := .variable decl :: decl.init.nodes

def ForInit.nodes : ForInit → List Node
  | .letVar decl => decl.nodes
  | .assign e => e.nodes

mutual

def Stmt.nodes : Stmt → List Node
  | .expr _ e => e.nodes
  | .letVar _ decl => decl.nodes
  | .function _ decl => decl.nodes
  | .block _ body => body.nodes
  | .ifElse _ condition thenBranch none => condition.nodes ++ thenBranch.nodes
  | .ifElse _ condition thenBranch (some elseBranch) =>
    condition.nodes ++ (thenBranch.nodes ++ elseBranch.nodes)
  | .whileLoop _ condition body => condition.nodes ++ body.nodes
  | .forLoop _ init condition step body =>
    init.nodes ++ (condition.nodes ++ (step.nodes ++ body.nodes))
  | .breakLoop _ | .continueLoop _ | .returnValue _ none => []
  | .returnValue _ (some value) => value.nodes

def Stmt.allNodes : List Stmt → List Node
  | [] => []
  | s :: rest => s.nodes ++ Stmt.allNodes rest

def Block.nodes : Block → List Node
  | ⟨_, statements⟩ => Stmt.allNodes statements

def FunctionDecl.nodes : FunctionDecl → List Node
  | ⟨id, name, nameSpan, params, resultName, body, span, symbol⟩ =>
    .function ⟨id, name, nameSpan, params, resultName, body, span, symbol⟩ :: body.nodes

end

def Program.nodes (program : Program) : List Node := Stmt.allNodes program.statements

/-- The first node of an expression is the expression, and the others do not depend on its span. -/
theorem Expr.nodes_eq_cons (e : Expr) : e.nodes = .expr e :: e.nodes.tail := by
  cases e <;> rfl

theorem Expr.tail_nodes_setSpan (e : Expr) (span : Span) :
    (e.setSpan span).nodes.tail = e.nodes.tail := by
  cases e <;> rfl

theorem Expr.mem_allNodes {node : Node} {args : List Expr} :
    node ∈ Expr.nodes.allNodes args ↔ ∃ arg ∈ args, node ∈ arg.nodes := by
  induction args with
  | nil => simp [Expr.nodes.allNodes]
  | cons e rest ih => simp [Expr.nodes.allNodes, ih]

theorem Stmt.mem_allNodes {node : Node} {statements : List Stmt} :
    node ∈ Stmt.allNodes statements ↔ ∃ s ∈ statements, node ∈ s.nodes := by
  induction statements with
  | nil => simp [Stmt.allNodes]
  | cons s rest ih => simp [Stmt.allNodes, ih]

theorem Stmt.nodes_ifElse (span : Span) (condition : Expr) (thenBranch : Block)
    (elseBranch : Option Block) : (Stmt.ifElse span condition thenBranch elseBranch).nodes =
      condition.nodes ++ (thenBranch.nodes ++ elseBranch.toList.flatMap Block.nodes) := by
  cases elseBranch <;> simp [Stmt.nodes]

/-- All slots of the node are empty. -/
def Node.Blank : Node → Prop
  | .expr (.variable note _ symbol) => note.type.isSet = false ∧ symbol.isSet = false
  | .expr (.call note _ _ _ callee) => note.type.isSet = false ∧ callee.isSet = false
  | .expr e => e.type.isSet = false
  | .variable decl => decl.declared.isSet = false ∧ decl.symbol.isSet = false
  | .function decl => decl.symbol.isSet = false ∧ ∀ param ∈ decl.params, param.symbol.isSet = false

mutual

theorem Expr.blank_nodes : ∀ e : Expr, ∀ node ∈ e.blank.nodes, node.Blank
  | .literal .. => List.forall_mem_singleton.mpr rfl
  | .variable .. => List.forall_mem_singleton.mpr ⟨rfl, rfl⟩
  | .assign _ target value => List.forall_mem_cons.mpr
    ⟨rfl, List.forall_mem_append.mpr ⟨target.blank_nodes, value.blank_nodes⟩⟩
  | .binary _ _ left right => List.forall_mem_cons.mpr
    ⟨rfl, List.forall_mem_append.mpr ⟨left.blank_nodes, right.blank_nodes⟩⟩
  | .unary _ _ operand => List.forall_mem_cons.mpr ⟨rfl, operand.blank_nodes⟩
  | .call _ _ _ args _ => List.forall_mem_cons.mpr ⟨⟨rfl, rfl⟩, Expr.blankAll_nodes args⟩

theorem Expr.blankAll_nodes : ∀ args : List Expr,
    ∀ node ∈ Expr.nodes.allNodes (Expr.blank.blankAll args), node.Blank
  | [] => by simp [Expr.blank.blankAll, Expr.nodes.allNodes]
  | e :: rest => List.forall_mem_append.mpr ⟨e.blank_nodes, Expr.blankAll_nodes rest⟩

end

theorem VarDecl.blank_nodes (decl : VarDecl) : ∀ node ∈ decl.blank.nodes, node.Blank :=
  List.forall_mem_cons.mpr ⟨⟨rfl, rfl⟩, decl.init.blank_nodes⟩

theorem ForInit.blank_nodes : ∀ init : ForInit, ∀ node ∈ init.blank.nodes, node.Blank
  | .letVar decl => decl.blank_nodes
  | .assign e => e.blank_nodes

mutual

theorem Stmt.blank_nodes : ∀ s : Stmt, ∀ node ∈ s.blank.nodes, node.Blank
  | .expr _ e => e.blank_nodes
  | .letVar _ decl => decl.blank_nodes
  | .function _ decl => decl.blank_nodes
  | .block _ body => body.blank_nodes
  | .ifElse _ condition thenBranch none =>
    List.forall_mem_append.mpr ⟨condition.blank_nodes, thenBranch.blank_nodes⟩
  | .ifElse _ condition thenBranch (some elseBranch) =>
    List.forall_mem_append.mpr ⟨condition.blank_nodes,
      List.forall_mem_append.mpr ⟨thenBranch.blank_nodes, elseBranch.blank_nodes⟩⟩
  | .whileLoop _ condition body =>
    List.forall_mem_append.mpr ⟨condition.blank_nodes, body.blank_nodes⟩
  | .forLoop _ init condition step body =>
    List.forall_mem_append.mpr ⟨init.blank_nodes, List.forall_mem_append.mpr
      ⟨condition.blank_nodes, List.forall_mem_append.mpr ⟨step.blank_nodes, body.blank_nodes⟩⟩⟩
  | .breakLoop _ | .continueLoop _ | .returnValue _ none => List.forall_mem_nil _
  | .returnValue _ (some value) => value.blank_nodes

theorem Stmt.allBlank_nodes : ∀ statements : List Stmt,
    ∀ node ∈ Stmt.allNodes (Stmt.allBlank statements), node.Blank
  | [] => List.forall_mem_nil _
  | s :: rest => List.forall_mem_append.mpr ⟨s.blank_nodes, Stmt.allBlank_nodes rest⟩

theorem Block.blank_nodes : ∀ body : Block, ∀ node ∈ body.blank.nodes, node.Blank
  | ⟨_, statements⟩ => Stmt.allBlank_nodes statements

theorem FunctionDecl.blank_nodes : ∀ decl : FunctionDecl, ∀ node ∈ decl.blank.nodes, node.Blank
  | ⟨_, _, _, params, _, body, _, _⟩ => by
    refine List.forall_mem_cons.mpr ⟨⟨rfl, fun param member => ?_⟩, body.blank_nodes⟩
    obtain ⟨other, -, rfl⟩ := List.mem_map.mp member
    rfl

end

/-- In a blank tree all slots are empty. -/
theorem Program.blank_nodes (program : Program) : ∀ node ∈ program.blank.nodes, node.Blank := by
  rw [nodes, blank, ← Stmt.allBlank_eq_map]
  exact Stmt.allBlank_nodes program.statements

end Lu
