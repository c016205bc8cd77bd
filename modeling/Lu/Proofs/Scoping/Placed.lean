import Lu.Proofs.Check.Accepted
import Lu.Proofs.Parse.Excerpts
import Lu.Proofs.Scoping.Visited
import Lu.Proofs.Token.Tiling

namespace Lu

/-!
An expression of a source text is visited in one list of scopes only: where the resolution of names goes
on in others, it has gone on to later tokens.
-/

def Node.expr? : Node → Option Expr
  | .expr e => some e
  | .variable _ | .function _ => none

mutual

/-- The nodes of an expression are visited one after the other, all in the same scopes. -/
theorem Expr.visited_eq (scopes : Scopes) :
    ∀ e : Expr, e.visited scopes = (e.nodes.filterMap Node.expr?).map fun inner => (scopes, inner)
  | .literal .. | .variable .. => rfl
  | .assign _ target value => by
    simp [Expr.visited, Expr.nodes, Node.expr?, target.visited_eq scopes, value.visited_eq scopes]
  | .binary _ _ left right => by
    simp [Expr.visited, Expr.nodes, Node.expr?, left.visited_eq scopes, right.visited_eq scopes]
  | .unary _ _ operand => by simp [Expr.visited, Expr.nodes, Node.expr?, operand.visited_eq scopes]
  | .call _ _ _ args _ => by simp [Expr.visited, Expr.nodes, Node.expr?, Expr.allVisited_eq scopes args]

theorem Expr.allVisited_eq (scopes : Scopes) : ∀ args, Expr.visited.allVisited scopes args =
    ((Expr.nodes.allNodes args).filterMap Node.expr?).map fun inner => (scopes, inner)
  | [] => rfl
  | e :: rest => by
    simp [Expr.visited.allVisited, Expr.nodes.allNodes, e.visited_eq scopes,
      Expr.allVisited_eq scopes rest]

end

theorem Expr.mem_visited {scopes : Scopes} {e : Expr} {visit : Scopes × Expr}
    (member : visit ∈ e.visited scopes) : visit.1 = scopes ∧ .expr visit.2 ∈ e.nodes := by
  rw [Expr.visited_eq] at member
  obtain ⟨inner, among, rfl⟩ := List.mem_map.mp member
  obtain ⟨node, member, same⟩ := List.mem_filterMap.mp among
  cases node <;> cases same
  exact ⟨rfl, member⟩

/-- The expressions that are visited cover some of the tokens each, and those that are visited in other
scopes than the ones before them cover later tokens. -/
inductive Placed : List Token → List (Scopes × Expr) → Prop
  | nil {tokens} : Placed tokens []
  | cons {skip segment rest scopes visits later} :
      (∀ visit ∈ visits, visit.1 = scopes ∧ CoversWithin segment visit.2) → Placed rest later →
      Placed (skip ++ (segment ++ rest)) (visits ++ later)

namespace Placed

variable {tokens front back : List Token} {token : Token} {visits later : List (Scopes × Expr)}

theorem one {scopes : Scopes} (each : ∀ visit ∈ visits, visit.1 = scopes ∧ CoversWithin tokens visit.2) :
    Placed tokens visits := by
  have placed : Placed ([] ++ (tokens ++ [])) (visits ++ []) := .cons each .nil
  rwa [List.append_nil, List.append_nil] at placed

theorem behind (placed : Placed back visits) : Placed (front ++ back) visits := by
  cases placed with
  | nil => exact .nil
  | cons each later =>
    rw [← List.append_assoc]
    exact .cons each later

theorem past (placed : Placed tokens visits) : Placed (token :: tokens) visits :=
  @behind [token] tokens visits placed

theorem append (placed : Placed front visits) (also : Placed back later) :
    Placed (front ++ back) (visits ++ later) := by
  induction placed with
  | nil => exact also.behind
  | cons each _ ih =>
    rw [List.append_assoc, List.append_assoc, List.append_assoc]
    exact .cons each ih

theorem before (placed : Placed front visits) : Placed (front ++ back) visits := by
  have placed := @append front back visits [] placed .nil
  rwa [List.append_nil] at placed

theorem within (placed : Placed tokens visits) : ∀ visit ∈ visits, CoversWithin tokens visit.2 := by
  induction placed with
  | nil => exact List.forall_mem_nil _
  | cons each _ ih =>
    refine List.forall_mem_append.mpr ⟨fun visit member => ?_, fun visit member => ?_⟩
    · exact (each visit member).2.before.behind
    · exact (ih visit member).behind.behind

end Placed

/-- An expression starts where one of the tokens does. -/
theorem CoversWithin.start {tokens : List Token} {e : Expr} (within : CoversWithin tokens e) :
    ∃ token ∈ tokens, token.span.start = e.span.start := by
  obtain ⟨front, part, back, level, rfl, covers⟩ := within
  obtain ⟨token, rest, rfl⟩ := List.exists_cons_of_ne_nil covers.ne_nil
  refine ⟨token, by simp, ?_⟩
  rw [covers.span, extent_head_start]

/-- Where no two tokens start at the same place, an expression has its place, and with it its scopes. -/
theorem Placed.unique {tokens : List Token} {visits : List (Scopes × Expr)}
    (placed : Placed tokens visits)
    (increasing : tokens.Pairwise fun first later => first.span.start < later.span.start)
    {scopes others : Scopes} {e : Expr} (first : (scopes, e) ∈ visits) (second : (others, e) ∈ visits) :
    scopes = others := by
  induction placed with
  | nil => cases first
  | @cons skip segment rest between visits later each placed ih =>
    obtain ⟨-, increasing, -⟩ := List.pairwise_append.mp increasing
    obtain ⟨-, increasing, apart⟩ := List.pairwise_append.mp increasing
    have elsewhere (here) (member : (here, e) ∈ visits) (there) (member' : (there, e) ∈ later) :
        False := by
      obtain ⟨token, atToken, start⟩ := (each _ member).2.start
      obtain ⟨token', atToken', start'⟩ := (placed.within _ member').start
      exact (apart token atToken token' atToken').ne (start.trans start'.symm)
    rcases List.mem_append.mp first with first | first <;>
      rcases List.mem_append.mp second with second | second
    · exact (each _ first).1.trans (each _ second).1.symm
    · exact (elsewhere _ first _ second).elim
    · exact (elsewhere _ second _ first).elim
    · exact ih increasing first second

section Covered

variable {tokens : List Token}

theorem Expr.Covers.placed {level : Nat} {e : Expr} (covers : Expr.Covers level tokens e)
    (scopes : Scopes) : Placed tokens (e.visited scopes) :=
  .one fun _ member => (Expr.mem_visited member).imp_right covers.node

theorem VarDecl.Covers.placed {decl : VarDecl} (covers : VarDecl.Covers tokens decl) (scopes : Scopes) :
    Placed tokens (decl.init.visited scopes) := by
  cases covers with
  | intro _ _ _ init => exact (init.placed scopes).past.behind

theorem ForInit.Covers.placed {init : ForInit} (covers : ForInit.Covers tokens init) (scopes : Scopes) :
    Placed tokens (init.visited scopes) := by
  cases covers with
  | letVar _ covers => exact (covers.placed scopes).past
  | assign covers => exact covers.placed scopes

theorem Stmt.visited_ifElse (scopes : Scopes) (span : Span) (condition : Expr) (thenBranch : Block)
    (elseBranch : Option Block) : (Stmt.ifElse span condition thenBranch elseBranch).visited scopes =
      condition.visited scopes ++
        (thenBranch.visited scopes ++ elseBranch.toList.flatMap (Block.visited scopes)) := by
  cases elseBranch <;> simp [Stmt.visited]

/-- The statements of a list are visited in their order, up to the first one that is not resolved. -/
theorem Stmt.allVisited_placed {parts : List (List Token × Stmt)}
    (each : ∀ part ∈ parts, ∀ scopes, Placed part.1 (part.2.visited scopes)) (scopes : Scopes)
    (inRun : Bool) :
    Placed (parts.flatMap (·.1)) (Stmt.allVisited scopes inRun (parts.map (·.2))) := by
  induction parts generalizing scopes inRun with
  | nil =>
    rw [List.map_nil, Stmt.allVisited]
    exact .nil
  | cons part rest ih =>
    obtain ⟨tokens, s⟩ := part
    obtain ⟨first, later⟩ := List.forall_mem_cons.mp each
    rw [List.flatMap_cons, List.map_cons]
    cases s with
    | function span decl =>
      rw [Stmt.allVisited]
      split
      · exact (first _).append (ih later _ _)
      · exact .nil
    | expr | letVar | block | ifElse | whileLoop | forLoop | breakLoop | continueLoop
    | returnValue =>
      rw [Stmt.allVisited.eq_3 _ _ _ _ (by rintro _ _ ⟨⟩)]
      refine (first scopes).append ?_
      split
      · exact ih later _ _
      · exact .nil

mutual

theorem Stmt.Covers.placed {tokens : List Token} {s : Stmt} (scopes : Scopes) :
    Stmt.Covers tokens s → Placed tokens (s.visited scopes)
  | .expr shape covers _ => shape ▸ (covers.placed scopes).before
  | .letVar shape _ covers _ => shape ▸ (covers.placed scopes).past.before
  | .function covers => covers.placed scopes
  | .block covers => covers.placed scopes
  | .ifElse shape _ _ testCovers _ thenCovers elseCovers => by
    subst shape
    rw [Stmt.visited_ifElse, ← List.append_assoc]
    exact ((testCovers.placed scopes).past.past.append (thenCovers.placed scopes).past).append
      (elseCovers.placed scopes)
  | .whileLoop shape _ _ testCovers _ bodyCovers => by
    subst shape
    exact (testCovers.placed scopes).past.past.append (bodyCovers.placed scopes).past
  | .forLoop shape _ _ initCovers _ testCovers _ stepCovers _ bodyCovers => by
    subst shape
    have init := initCovers.placed scopes.push
    rw [Stmt.visited]
    split
    · rename_i inner _
      have test := testCovers.placed inner
      have step := stepCovers.placed inner
      rw [← List.append_assoc, ← List.append_assoc]
      exact ((init.past.past.append test.past).append step.past).append (bodyCovers.placed inner).past
    · rw [List.append_nil]
      exact init.past.past.before.before.before
  | .breakLoop .. | .continueLoop .. | .returnNone .. => .nil
  | .returnSome shape _ covers _ => shape ▸ (covers.placed scopes).past.before

theorem ElseCovers.placed {tokens : List Token} {body : Option Block} (scopes : Scopes) :
    ElseCovers tokens body → Placed tokens (body.toList.flatMap (Block.visited scopes))
  | .none => .nil
  | .block _ covers => by
    rw [Option.toList_some, List.flatMap_singleton]
    exact (covers.placed scopes).past
  | @ElseCovers.elseIf tokens _ _ _ _ _ covers => by
    rw [Option.toList_some, List.flatMap_singleton]
    have only := @Stmt.allVisited_placed [(tokens, _)]
      (List.forall_mem_singleton.mpr fun scopes => covers.placed scopes) scopes.push false
    rw [List.flatMap_singleton] at only
    exact only.past

theorem Block.Covers.placed {tokens : List Token} {body : Block} (scopes : Scopes) :
    Block.Covers tokens body → Placed tokens (body.visited scopes)
  | .intro shape _ each _ => by
    subst shape
    exact (Stmt.allVisited_placed (fun part member scopes => (each part member).placed scopes)
      scopes.push false).past.before

theorem FunctionDecl.Covers.placed {tokens : List Token} {decl : FunctionDecl} (scopes : Scopes) :
    FunctionDecl.Covers tokens decl → Placed tokens (decl.visited scopes)
  | .intro shape _ _ _ _ _ _ _ covers => by
    subst shape
    rw [FunctionDecl.visited]
    split
    · split
      · exact (covers.placed _).behind
      · exact .nil
    · exact .nil

end

theorem Program.Covers.placed {program : Program} (covers : Program.Covers tokens program)
    (natives : List NativeSignature) : Placed tokens (program.visited natives) := by
  obtain ⟨shape, each, -⟩ := covers
  subst shape
  exact (Stmt.allVisited_placed (fun part member scopes => (each part member).placed scopes) _ _).before

end Covered

/-- An expression of a source text is visited in one list of scopes. -/
theorem Source.visited_once {source : String} {p : Program}
    (short : byteLength source.toList ≤ Span.lastOffset) (parsed : program source = .ok p)
    {natives : List NativeSignature} {scopes others : Scopes} {e : Expr}
    (first : (scopes, e) ∈ p.visited natives) (second : (others, e) ∈ p.visited natives) :
    scopes = others := by
  obtain ⟨tokens, lexed, parsed⟩ := program_eq_ok.mp parsed
  have placed := (parse?_covers (lex_ready lexed) parsed).placed natives
  have increasing := (lex_tiles short lexed).increasing.imp fun {_ _} later => later.1
  exact placed.unique increasing first second

end Lu
