import Lu.Tree.Basic

namespace Lu

/-!
The regions of a tree: a span for every node, and in it those of its parts in the order in which they are
written. Names and type names are parts too, which have none of their own.
-/

inductive Region where
  | mk (span : Span) (parts : List Region)

namespace Region

def span : Region → Span
  | ⟨span, _⟩ => span

def parts : Region → List Region
  | ⟨_, parts⟩ => parts

/-- What has no parts. -/
def leaf (span : Span) : Region := ⟨span, []⟩

/-- The parts of a region lie in it, each one behind those before it, and their own parts do so too. -/
inductive Nested : Region → Prop
  | intro {span parts} :
      (∀ part ∈ parts, span.start ≤ part.span.start ∧ part.span.stop ≤ span.stop) →
      parts.Pairwise (fun first later => first.span.stop ≤ later.span.start) →
      (∀ part ∈ parts, Nested part) → Nested ⟨span, parts⟩

theorem nested_leaf (span : Span) : (leaf span).Nested := .intro nofun .nil nofun

/-- A region can be widened. -/
theorem Nested.widen {region : Region} {outer : Span} (nested : region.Nested)
    (start : outer.start ≤ region.span.start) (stop : region.span.stop ≤ outer.stop) :
    Nested ⟨outer, region.parts⟩ := by
  cases nested with
  | @intro span parts within apart each =>
    have inner : span.stop ≤ outer.stop := stop
    have inner' : outer.start ≤ span.start := start
    refine .intro (fun part member => ?_) apart each
    have := within part member
    omega

end Region

def Expr.region : Expr → Region
  | .literal note _ | .variable note _ _ => .leaf note.span
  | .assign note target value => ⟨note.span, [target.region, value.region]⟩
  | .binary note _ left right => ⟨note.span, [left.region, right.region]⟩
  | .unary note _ operand => ⟨note.span, [operand.region]⟩
  | .call note _ nameSpan args _ => ⟨note.span, .leaf nameSpan :: regions args⟩
where
  regions : List Expr → List Region
    | [] => []
    | e :: rest => e.region :: regions rest

theorem Expr.regions_eq_map (args : List Expr) :
    Expr.region.regions args = args.map Expr.region := by
  induction args with
  | nil => rfl
  | cons e rest ih => simp [region.regions, ih]

def TypeName.regions (typeName : Option TypeName) : List Region :=
  typeName.toList.map fun typeName => .leaf typeName.span

def VarDecl.regions (decl : VarDecl) : List Region :=
  .leaf decl.nameSpan :: (TypeName.regions decl.typeName ++ [decl.init.region])

def Param.regions (param : Param) : List Region := [.leaf param.span, .leaf param.typeName.span]

def ForInit.regions : ForInit → List Region
  | .letVar decl => decl.regions
  | .assign e => [e.region]

mutual

def Stmt.region : Stmt → Region
  | .expr span e => ⟨span, [e.region]⟩
  | .letVar span decl => ⟨span, decl.regions⟩
  | .function span decl => ⟨span, [decl.region]⟩
  | .block span body => ⟨span, [body.region]⟩
  | .ifElse span condition thenBranch none => ⟨span, [condition.region, thenBranch.region]⟩
  | .ifElse span condition thenBranch (some elseBranch) =>
    ⟨span, [condition.region, thenBranch.region, elseBranch.region]⟩
  | .whileLoop span condition body => ⟨span, [condition.region, body.region]⟩
  | .forLoop span init condition step body =>
    ⟨span, init.regions ++ [condition.region, step.region, body.region]⟩
  | .breakLoop span | .continueLoop span | .returnValue span none => .leaf span
  | .returnValue span (some value) => ⟨span, [value.region]⟩

def Stmt.allRegions : List Stmt → List Region
  | [] => []
  | s :: rest => s.region :: Stmt.allRegions rest

def Block.region : Block → Region
  | ⟨span, statements⟩ => ⟨span, Stmt.allRegions statements⟩

def FunctionDecl.region : FunctionDecl → Region
  | ⟨_, _, nameSpan, params, resultName, body, span, _⟩ =>
    ⟨span, .leaf nameSpan :: (params.flatMap Param.regions ++
      (TypeName.regions resultName ++ [body.region]))⟩

end

theorem Stmt.allRegions_eq_map (statements : List Stmt) :
    Stmt.allRegions statements = statements.map Stmt.region := by
  induction statements with
  | nil => rfl
  | cons s rest ih => simp [Stmt.allRegions, ih]

def Program.region (program : Program) : Region :=
  ⟨program.span, Stmt.allRegions program.statements⟩

theorem Expr.region_span (e : Expr) : e.region.span = e.span := by
  cases e <;> rfl

theorem Expr.region_setSpan (e : Expr) (span : Span) :
    (e.setSpan span).region = ⟨span, e.region.parts⟩ := by
  cases e <;> rfl

theorem Stmt.region_ifElse (span : Span) (condition : Expr) (thenBranch : Block)
    (elseBranch : Option Block) : (Stmt.ifElse span condition thenBranch elseBranch).region =
      ⟨span, [condition.region, thenBranch.region] ++ elseBranch.toList.map Block.region⟩ := by
  cases elseBranch <;> rfl

theorem Stmt.region_forLoop (span : Span) (init : ForInit) (condition step : Expr) (body : Block) :
    (Stmt.forLoop span init condition step body).region =
      ⟨span, ((init.regions ++ [condition.region]) ++ [step.region]) ++ [body.region]⟩ := by
  simp [Stmt.region]

theorem Stmt.region_span (s : Stmt) : s.region.span = s.span := by
  cases s with
  | ifElse _ _ _ elseBranch => cases elseBranch <;> rfl
  | returnValue _ value => cases value <;> rfl
  | _ => rfl

end Lu
