import Lu.Proofs.Parse.Covering
import Lu.Proofs.Tree.Nodes

namespace Lu

/-!
Each expression in a program covers tokens of its own among those of the program.
-/

/-- Some of the tokens, one after the other, are those that the expression covers. -/
def CoversWithin (tokens : List Token) (e : Expr) : Prop :=
  ∃ front part back level, tokens = front ++ (part ++ back) ∧ Expr.Covers level part e

section Within

variable {tokens front mid back : List Token} {token : Token} {e x : Expr}

theorem Expr.Covers.within {level : Nat} (covers : Expr.Covers level tokens e) :
    CoversWithin tokens e :=
  ⟨[], tokens, [], level, by simp, covers⟩

theorem CoversWithin.before (within : CoversWithin front e) : CoversWithin (front ++ back) e := by
  obtain ⟨first, part, last, level, rfl, covers⟩ := within
  exact ⟨first, part, last ++ back, level, by simp, covers⟩

theorem CoversWithin.behind (within : CoversWithin back e) : CoversWithin (front ++ back) e := by
  obtain ⟨first, part, last, level, rfl, covers⟩ := within
  exact ⟨front ++ first, part, last, level, by simp, covers⟩

theorem CoversWithin.past (within : CoversWithin tokens e) : CoversWithin (token :: tokens) e :=
  @behind [token] tokens e within

theorem Separated.within {parts : List (List Token)} (separates : Separated parts tokens) :
    ∀ part ∈ parts, ∀ e, CoversWithin part e → CoversWithin tokens e := by
  induction separates with
  | nil => exact nofun
  | one => exact List.forall_mem_singleton.mpr fun _ within => within
  | more _ _ _ ih =>
    exact List.forall_mem_cons.mpr ⟨fun _ within => within.before,
      fun part member e within => (ih part member e within).past.behind⟩

theorem Expr.Covers.node_of_tail {level : Nat} (covers : Expr.Covers level tokens e)
    (inner : .expr x ∈ e.nodes.tail → CoversWithin tokens x) (member : .expr x ∈ e.nodes) :
    CoversWithin tokens x := by
  rw [e.nodes_eq_cons] at member
  rcases List.mem_cons.mp member with same | member
  · cases same
    exact covers.within
  · exact inner member

theorem CoversWithin.operands {l r : Expr} (onLeft : .expr x ∈ l.nodes → CoversWithin front x)
    (onRight : .expr x ∈ r.nodes → CoversWithin back x) (member : .expr x ∈ l.nodes ++ r.nodes) :
    CoversWithin (front ++ token :: back) x := by
  rcases List.mem_append.mp member with member | member
  · exact (onLeft member).before
  · exact (onRight member).past.behind

/-- The expressions in an expression cover some of its tokens. -/
theorem Expr.Covers.inner_node {level : Nat} (covers : Expr.Covers level tokens e) :
    .expr x ∈ e.nodes.tail → CoversWithin tokens x := by
  induction covers with
  | tighter _ _ ih => exact ih
  | assign shape target _ value ih ih' | power shape target _ value ih ih'
  | binary shape _ _ target _ value ih ih' =>
    subst shape
    exact CoversWithin.operands (target.node_of_tail ih) (value.node_of_tail ih')
  | unary _ operand ih => exact fun member => (operand.node_of_tail ih member).past
  | literal | name => exact fun member => (List.not_mem_nil member).elim
  | call shape _ _ each separates _ ih =>
    intro member
    subst shape
    obtain ⟨arg, inArgs, member⟩ := Expr.mem_allNodes.mp member
    obtain ⟨pair, inPairs, rfl⟩ := List.mem_map.mp inArgs
    have inside := (each pair inPairs).node_of_tail (ih pair inPairs) member
    exact (separates.within _ (List.mem_map_of_mem inPairs) x inside).past.past.before
  | parens shape _ _ _ ih =>
    intro member
    subst shape
    rw [Expr.tail_nodes_setSpan] at member
    exact (ih member).past.before

theorem Expr.Covers.node {level : Nat} (covers : Expr.Covers level tokens e)
    (member : .expr x ∈ e.nodes) : CoversWithin tokens x :=
  covers.node_of_tail covers.inner_node member

theorem VarDecl.Covers.node {decl : VarDecl} (covers : VarDecl.Covers tokens decl)
    (member : .expr x ∈ decl.nodes) : CoversWithin tokens x := by
  cases covers with
  | intro _ _ _ init =>
    rcases List.mem_cons.mp member with same | member
    · cases same
    · exact (init.node member).past.behind

theorem ForInit.Covers.node {init : ForInit} (covers : ForInit.Covers tokens init)
    (member : .expr x ∈ init.nodes) : CoversWithin tokens x := by
  cases covers with
  | letVar _ covers => exact (covers.node member).past
  | assign covers => exact covers.node member

theorem CoversWithin.flatMap {parts : List (List Token × Stmt)} {part : List Token × Stmt}
    (within : CoversWithin part.1 x) (member : part ∈ parts) :
    CoversWithin (parts.flatMap (·.1)) x := by
  obtain ⟨front, back, rfl⟩ := List.append_of_mem member
  rw [List.flatMap_append, List.flatMap_cons]
  exact within.before.behind

mutual

theorem Stmt.Covers.node {tokens : List Token} {s : Stmt} {x : Expr} :
    Stmt.Covers tokens s → .expr x ∈ s.nodes → CoversWithin tokens x
  | .expr shape covers _, member => shape ▸ (covers.node member).before
  | .letVar shape _ covers _, member => shape ▸ (covers.node member).past.before
  | .function covers, member => covers.node member
  | .block covers, member => covers.node member
  | .ifElse shape _ _ testCovers _ thenCovers elseCovers, member => by
    subst shape
    rw [Stmt.nodes_ifElse] at member
    rcases List.mem_append.mp member with member | member
    · exact (testCovers.node member).past.past.before.before
    rcases List.mem_append.mp member with member | member
    · exact (thenCovers.node member).past.behind.before
    · exact (elseCovers.node member).behind
  | .whileLoop shape _ _ testCovers _ bodyCovers, member => by
    subst shape
    rcases List.mem_append.mp member with member | member
    · exact (testCovers.node member).past.past.before
    · exact (bodyCovers.node member).past.behind
  | .forLoop shape _ _ initCovers _ testCovers _ stepCovers _ bodyCovers, member => by
    subst shape
    rcases List.mem_append.mp member with member | member
    · exact (initCovers.node member).past.past.before.before.before
    rcases List.mem_append.mp member with member | member
    · exact (testCovers.node member).past.behind.before.before
    rcases List.mem_append.mp member with member | member
    · exact (stepCovers.node member).past.behind.before
    · exact (bodyCovers.node member).past.behind
  | .breakLoop .., member | .continueLoop .., member | .returnNone .., member =>
    (List.not_mem_nil member).elim
  | .returnSome shape _ covers _, member => shape ▸ (covers.node member).past.before

theorem ElseCovers.node {tokens : List Token} {body : Option Block} {x : Expr} :
    ElseCovers tokens body → .expr x ∈ body.toList.flatMap Block.nodes → CoversWithin tokens x
  | .none, member => (List.not_mem_nil member).elim
  | .block _ covers, member => by
    rw [Option.toList_some, List.flatMap_singleton] at member
    exact (covers.node member).past
  | .elseIf _ covers, member => by
    rw [Option.toList_some, List.flatMap_singleton] at member
    obtain ⟨s, inBlock, member⟩ := Stmt.mem_allNodes.mp member
    rw [List.mem_singleton.mp inBlock] at member
    exact (covers.node member).past

theorem Block.Covers.node {tokens : List Token} {body : Block} {x : Expr} :
    Block.Covers tokens body → .expr x ∈ body.nodes → CoversWithin tokens x
  | .intro shape _ each _, member => by
    subst shape
    obtain ⟨s, inBlock, member⟩ := Stmt.mem_allNodes.mp member
    obtain ⟨part, inParts, rfl⟩ := List.mem_map.mp inBlock
    exact (((each part inParts).node member).flatMap inParts).past.before

theorem FunctionDecl.Covers.node {tokens : List Token} {decl : FunctionDecl} {x : Expr} :
    FunctionDecl.Covers tokens decl → .expr x ∈ decl.nodes → CoversWithin tokens x
  | .intro shape _ _ _ _ _ _ _ covers, member => by
    subst shape
    rcases List.mem_cons.mp member with same | member
    · cases same
    · exact (covers.node member).behind

end

theorem Program.Covers.node {program : Program} (covers : Program.Covers tokens program)
    (member : .expr x ∈ program.nodes) : CoversWithin tokens x := by
  obtain ⟨shape, each, -⟩ := covers
  subst shape
  obtain ⟨s, inProgram, member⟩ := Stmt.mem_allNodes.mp member
  obtain ⟨part, inParts, rfl⟩ := List.mem_map.mp inProgram
  exact (((each part inParts).node member).flatMap inParts).before

end Within

end Lu
