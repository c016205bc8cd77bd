import Lu.Proofs.Parse.Covering
import Lu.Proofs.Tree.Regions

namespace Lu

/-!
What covers tokens that are in order has nested regions: its parts cover tokens that lie apart.
-/

/-- The regions cover some of the tokens each, one after the other, and are nested. -/
inductive Laid : List Token → List Region → Prop
  | nil {tokens} : Laid tokens []
  | cons {skip segment rest region parts} : segment ≠ [] → region.span = extent segment →
      region.Nested → Laid rest parts → Laid (skip ++ (segment ++ rest)) (region :: parts)

namespace Laid

variable {tokens front back segment : List Token} {parts others : List Region} {region : Region}

theorem one (nonempty : segment ≠ []) (span : region.span = extent segment) (nested : region.Nested) :
    Laid segment [region] := by
  have laid : Laid ([] ++ (segment ++ [])) [region] := .cons nonempty span nested .nil
  rwa [List.append_nil] at laid

theorem token (token : Token) : Laid [token] [.leaf token.span] :=
  one (List.cons_ne_nil _ _) rfl (Region.nested_leaf _)

theorem behind (laid : Laid back parts) : Laid (front ++ back) parts := by
  cases laid with
  | nil => exact .nil
  | cons nonempty span nested later =>
    rw [← List.append_assoc]
    exact .cons nonempty span nested later

theorem past {token : Token} (laid : Laid tokens parts) : Laid (token :: tokens) parts :=
  @behind [token] tokens parts laid

theorem before (laid : Laid front parts) : Laid (front ++ back) parts := by
  induction laid with
  | nil => exact .nil
  | cons nonempty span nested _ ih =>
    rw [List.append_assoc, List.append_assoc]
    exact .cons nonempty span nested ih

theorem append (laid : Laid front parts) (also : Laid back others) :
    Laid (front ++ back) (parts ++ others) := by
  induction laid with
  | nil => exact also.behind
  | cons nonempty span nested _ ih =>
    rw [List.append_assoc, List.append_assoc]
    exact .cons nonempty span nested ih

theorem at_member (laid : Laid tokens parts) : ∀ region ∈ parts, ∃ front segment back,
    tokens = front ++ (segment ++ back) ∧ segment ≠ [] ∧ region.span = extent segment ∧
      region.Nested := by
  induction laid with
  | nil => exact nofun
  | @cons skip segment rest region parts nonempty span nested _ ih =>
    refine List.forall_mem_cons.mpr ⟨⟨skip, segment, rest, rfl, nonempty, span, nested⟩, ?_⟩
    intro region member
    obtain ⟨front, segment', back, rfl, nonempty, span, nested⟩ := ih region member
    exact ⟨skip ++ (segment ++ front), segment', back, by simp, nonempty, span, nested⟩

theorem apart (laid : Laid tokens parts) (ordered : Ordered tokens) :
    parts.Pairwise fun first later => first.span.stop ≤ later.span.start := by
  induction laid with
  | nil => exact .nil
  | @cons skip segment rest region parts nonempty span nested later ih =>
    refine List.pairwise_cons.mpr ⟨fun other member => ?_, ih ordered.right.right⟩
    obtain ⟨front, segment', back, rfl, nonempty', span', -⟩ := later.at_member other member
    rw [span, span']
    -- A later region may be any of those behind this one, so there are tokens in between.
    have between : Ordered ((segment ++ (front ++ segment')) ++ back) := by simpa using ordered.right
    exact between.left.disjoint nonempty nonempty'

/-- Among tokens that are in order the regions are the parts of a nested one. -/
theorem nested (laid : Laid tokens parts) (ordered : Ordered tokens) :
    Region.Nested ⟨extent tokens, parts⟩ := by
  refine .intro (fun region member => ?_) (laid.apart ordered) fun region member => ?_
  all_goals obtain ⟨front, segment, back, rfl, nonempty, span, nested⟩ := laid.at_member region member
  · rw [span]
    exact ordered.part nonempty
  · exact nested

end Laid

theorem Separated.ordered {parts : List (List Token)} {tokens : List Token}
    (separates : Separated parts tokens) (ordered : Ordered tokens) : ∀ part ∈ parts, Ordered part := by
  induction separates with
  | nil => exact nofun
  | one => exact List.forall_mem_singleton.mpr ordered
  | more _ _ _ ih => exact List.forall_mem_cons.mpr ⟨ordered.left, ih ordered.right.tail⟩

theorem Separated.laid {α : Type} {parts : List (List Token × α)} {regions : α → List Region}
    {tokens : List Token} (separates : Separated (parts.map (·.1)) tokens)
    (each : ∀ part ∈ parts, Laid part.1 (regions part.2)) :
    Laid tokens (parts.flatMap fun part => regions part.2) := by
  generalize shape : parts.map (·.1) = lists at separates
  induction separates generalizing parts with
  | nil =>
    rw [List.map_eq_nil_iff.mp shape]
    exact .nil
  | one =>
    obtain ⟨part, rest, rfl, rfl, same⟩ := List.map_eq_cons_iff.mp shape
    rw [List.map_eq_nil_iff.mp same] at each ⊢
    simpa using each
  | more _ _ _ ih =>
    obtain ⟨part, rest, rfl, rfl, same⟩ := List.map_eq_cons_iff.mp shape
    obtain ⟨first, later⟩ := List.forall_mem_cons.mp each
    exact first.append (ih later same).past

theorem Laid.flatMap {α : Type} {parts : List (List Token × α)} {region : α → Region}
    (each : ∀ part ∈ parts, Laid part.1 [region part.2]) :
    Laid (parts.flatMap (·.1)) (parts.map fun part => region part.2) := by
  induction parts with
  | nil => exact .nil
  | cons part rest ih =>
    obtain ⟨first, later⟩ := List.forall_mem_cons.mp each
    exact first.append (ih later)

section Exprs

variable {tokens : List Token}

theorem Expr.Covers.laid {level : Nat} {e : Expr} (covers : Expr.Covers level tokens e)
    (nested : e.region.Nested) : Laid tokens [e.region] :=
  .one covers.ne_nil (e.region_span.trans covers.span) nested

theorem Expr.Covers.nested {level : Nat} {e : Expr} (covers : Expr.Covers level tokens e) :
    Ordered tokens → e.region.Nested := by
  induction covers with
  | tighter _ _ ih => exact ih
  | assign shape target _ value ih ih' | binary shape _ _ target _ value ih ih'
  | power shape target _ value ih ih' =>
    intro ordered
    rw [shape] at ordered ⊢
    have left := target.laid (ih ordered.left)
    have right := value.laid (ih' ordered.right.tail)
    exact (left.append right.past).nested ordered
  | unary _ operand ih =>
    intro ordered
    exact (operand.laid (ih ordered.tail)).past.nested ordered
  | literal | name => exact fun _ => Region.nested_leaf _
  | @call whole inner name token opening closing args shape _ _ each separates _ ih =>
    intro ordered
    have shape' : whole = [token] ++ ([opening] ++ (inner ++ [closing])) := by simp [shape]
    rw [shape'] at ordered ⊢
    have laid (arg) (member : arg ∈ args) : Laid arg.1 [arg.2.region] :=
      (each arg member).laid (ih arg member
        (separates.ordered ordered.right.right.left _ (List.mem_map_of_mem member)))
    have all := @Separated.laid _ args (fun e => [e.region]) inner separates laid
    rw [Expr.region, Expr.regions_eq_map, List.map_map, List.map_eq_flatMap]
    exact ((Laid.token token).append all.before.past).nested ordered
  | @parens whole tokens e opening closing shape _ covers _ ih =>
    intro ordered
    have shape' : whole = [opening] ++ (tokens ++ [closing]) := by simp [shape]
    rw [shape'] at ordered ⊢
    have inside := ordered.part covers.ne_nil
    rw [← covers.span, ← Expr.region_span] at inside
    rw [Expr.region_setSpan]
    exact (ih ordered.right.left).widen inside.1 inside.2

/-- A type that is written stands where its name does. -/
theorem TypeAfter.laid {typeName : Option TypeName} (after : TypeAfter tokens typeName) :
    Laid tokens (TypeName.regions typeName) := by
  cases after with
  | none => exact .nil
  | some => exact (Laid.token _).past

theorem Param.Covers.laid {param : Param} (covers : Param.Covers tokens param) :
    Laid tokens param.regions := by
  cases covers with
  | intro => exact (Laid.token _).append (Laid.token _).past

theorem VarDecl.Covers.laid {decl : VarDecl} (covers : VarDecl.Covers tokens decl)
    (ordered : Ordered tokens) : Laid tokens decl.regions := by
  cases covers with
  | intro _ written _ init =>
    have value := init.laid (init.nested ordered.tail.right.tail)
    exact (Laid.token _).append (written.laid.append value.past)

theorem ForInit.Covers.laid {init : ForInit} (covers : ForInit.Covers tokens init)
    (ordered : Ordered tokens) : Laid tokens init.regions := by
  cases covers with
  | letVar _ covers => exact (covers.laid ordered.tail).past
  | assign covers => exact covers.laid (covers.nested ordered)

end Exprs

section Stmts

theorem Block.region_span (body : Block) : body.region.span = body.span := by
  cases body
  rfl

theorem FunctionDecl.region_span (decl : FunctionDecl) : decl.region.span = decl.span := by
  cases decl
  rfl

variable {tokens : List Token}

theorem Stmt.Covers.laid {s : Stmt} (covers : Stmt.Covers tokens s) (nested : s.region.Nested) :
    Laid tokens [s.region] :=
  .one covers.ne_nil (s.region_span.trans covers.span) nested

theorem Block.Covers.laid {body : Block} (covers : Block.Covers tokens body)
    (nested : body.region.Nested) : Laid tokens [body.region] :=
  .one covers.ne_nil (body.region_span.trans covers.span) nested

theorem FunctionDecl.Covers.laid {decl : FunctionDecl} (covers : FunctionDecl.Covers tokens decl)
    (nested : decl.region.Nested) : Laid tokens [decl.region] :=
  .one covers.ne_nil (decl.region_span.trans covers.span) nested

theorem Ordered.flatMap {parts : List (List Token × Stmt)} (ordered : Ordered (parts.flatMap (·.1))) :
    ∀ part ∈ parts, Ordered part.1 := by
  induction parts with
  | nil => exact nofun
  | cons part rest ih => exact List.forall_mem_cons.mpr ⟨ordered.left, ih ordered.right⟩

mutual

theorem Stmt.Covers.nested {tokens : List Token} {s : Stmt} :
    Stmt.Covers tokens s → Ordered tokens → s.region.Nested
  | .expr shape covers _, ordered => by
    subst shape
    exact (covers.laid (covers.nested ordered.left)).before.nested ordered
  | .letVar shape _ covers _, ordered => by
    subst shape
    exact (covers.laid ordered.left.tail).past.before.nested ordered
  | .function covers, ordered => (covers.laid (covers.nested ordered)).nested ordered
  | .block covers, ordered => (covers.laid (covers.nested ordered)).nested ordered
  | .ifElse shape _ _ testCovers _ thenCovers elseCovers, ordered => by
    subst shape
    have test := testCovers.laid (testCovers.nested ordered.left.left.tail.tail)
    have thenBranch := thenCovers.laid (thenCovers.nested ordered.left.right.tail)
    have elseBranch := elseCovers.laid ordered.right
    rw [Stmt.region_ifElse]
    exact ((test.past.past.append thenBranch.past).append elseBranch).nested ordered
  | .whileLoop shape _ _ testCovers _ bodyCovers, ordered => by
    subst shape
    have test := testCovers.laid (testCovers.nested ordered.left.tail.tail)
    have body := bodyCovers.laid (bodyCovers.nested ordered.right.tail)
    exact (test.past.past.append body.past).nested ordered
  | .forLoop shape _ _ initCovers _ testCovers _ stepCovers _ bodyCovers, ordered => by
    subst shape
    have init := initCovers.laid ordered.left.left.left.tail.tail
    have test := testCovers.laid (testCovers.nested ordered.left.left.right.tail)
    have step := stepCovers.laid (stepCovers.nested ordered.left.right.tail)
    have body := bodyCovers.laid (bodyCovers.nested ordered.right.tail)
    rw [Stmt.region_forLoop]
    exact (((init.past.past.append test.past).append step.past).append body.past).nested ordered
  | .breakLoop .., _ | .continueLoop .., _ | .returnNone .., _ => Region.nested_leaf _
  | .returnSome shape _ covers _, ordered => by
    subst shape
    have value := covers.laid (covers.nested ordered.left.tail)
    exact value.past.before.nested ordered

theorem ElseCovers.laid {tokens : List Token} {body : Option Block} :
    ElseCovers tokens body → Ordered tokens → Laid tokens (body.toList.map Block.region)
  | .none, _ => .nil
  | .block _ covers, ordered => (covers.laid (covers.nested ordered.tail)).past
  | .elseIf _ covers, ordered => by
    have inner := covers.laid (covers.nested ordered.tail)
    exact (Laid.one covers.ne_nil rfl (inner.nested ordered.tail)).past

theorem Block.Covers.nested {tokens : List Token} {body : Block} :
    Block.Covers tokens body → Ordered tokens → body.region.Nested
  | @Block.Covers.intro _ opening closing parts shape _ each _, ordered => by
    subst shape
    have apart := ordered.left.tail.flatMap
    have laid (part) (member : part ∈ parts) : Laid part.1 [part.2.region] :=
      (each part member).laid ((each part member).nested (apart part member))
    rw [Block.region, Stmt.allRegions_eq_map, List.map_map]
    exact (Laid.flatMap laid).past.before.nested ordered

theorem FunctionDecl.Covers.nested {tokens : List Token} {decl : FunctionDecl} :
    FunctionDecl.Covers tokens decl → Ordered tokens → decl.region.Nested
  | .intro shape _ _ _ each separates _ written covers, ordered => by
    subst shape
    have params := separates.laid fun param member => (each param member).laid
    have body := covers.laid (covers.nested ordered.right)
    rw [FunctionDecl.region, List.flatMap_map, ← List.append_assoc]
    exact ((((Laid.token _).append params.past).past.append written.laid.past).append body).nested
      ordered

end

theorem Program.Covers.nested {program : Program} (covers : Program.Covers tokens program)
    (ordered : Ordered tokens) : program.region.Nested := by
  obtain ⟨shape, each, -⟩ := covers
  rename_i last parts
  subst shape
  have apart := ordered.left.flatMap
  have laid (part) (member : part ∈ parts) : Laid part.1 [part.2.region] :=
    (each part member).laid ((each part member).nested (apart part member))
  rw [Program.region, Stmt.allRegions_eq_map, List.map_map]
  exact (Laid.flatMap laid).before.nested ordered

end Stmts

end Lu
