import Mathlib.Algebra.Order.BigOperators.Group.List
import Mathlib.Algebra.Order.Group.Nat
import Lu.Proofs.Print.Tokens
import Lu.Proofs.Tree.Bare

namespace Lu

/-!
No tokens that a tree derives from are fewer than those that it is printed with: there are no
parentheses and no braces without need.
-/

theorem atLevel_length (own asked : Nat) (tokens : List TokenKind) :
    (atLevel own asked tokens).length = tokens.length + if own < asked then 2 else 0 := by
  unfold atLevel
  split <;> simp

/-- Where a tighter expression is asked for there may be parentheses, but no fewer tokens. -/
theorem Expr.tokens_mono (e : Expr) {level tighter : Nat} (le : level ≤ tighter) :
    (e.tokens level).length ≤ (e.tokens tighter).length := by
  cases e with
  | literal | «variable» | call => exact Nat.le_refl _
  | assign | binary | unary =>
    simp only [Expr.tokens, atLevel_length]
    split <;> split <;> omega

theorem Expr.tokens_parens (e : Expr) (level : Nat) :
    (e.tokens level).length ≤ (e.tokens 0).length + 2 := by
  cases e with
  | literal | «variable» | call => exact Nat.le_add_right _ _
  | assign | binary | unary =>
    simp only [Expr.tokens, atLevel_length]
    split <;> split <;> omega

theorem separated_length_le {α : Type} {short long : α → List TokenKind} :
    ∀ {parts : List α}, (∀ part ∈ parts, (short part).length ≤ (long part).length) →
      (separated (parts.map short)).length ≤ (separated (parts.map long)).length
  | [], _ => Nat.le_refl 0
  | [_], each => (List.forall_mem_cons.mp each).1
  | part :: next :: rest, each => by
    obtain ⟨here, later⟩ := List.forall_mem_cons.mp each
    have ih := separated_length_le later
    simp only [List.map_cons, separated_cons_cons, List.length_append, List.length_cons] at ih ⊢
    omega

theorem Expr.Derives.tokens_length_le {level : Nat} {tokens : List TokenKind} {e : Expr}
    (derives : Expr.Derives level tokens e) : (e.tokens level).length ≤ tokens.length := by
  induction derives with
  | tighter _ _ ih => exact Nat.le_trans (Expr.tokens_mono _ (Nat.le_succ _)) ih
  | assign _ _ atTarget atValue =>
    simp only [Expr.tokens, atLevel_length, List.length_append, List.length_cons]
    split <;> omega
  | @binary op left right l r level same loose _ _ atLeft atRight =>
    have power : op ≠ .pow := by
      rintro rfl
      exact absurd same.symm (Nat.ne_of_lt loose)
    subst same
    simp only [Expr.tokens, atLevel_length, List.length_append, List.length_cons,
      BinaryOp.leftLevel, BinaryOp.rightLevel, if_neg power, Nat.lt_irrefl, if_false]
    omega
  | power _ _ atLeft atRight =>
    have leftLevel : BinaryOp.leftLevel .pow = 8 := rfl
    have rightLevel : BinaryOp.rightLevel .pow = 7 := rfl
    have level : BinaryOp.level .pow = 7 := rfl
    simp only [Expr.tokens, atLevel_length, List.length_append, List.length_cons, leftLevel,
      rightLevel, level, Nat.lt_irrefl, if_false]
    omega
  | unary _ ih =>
    simp only [Expr.tokens, atLevel_length, List.length_cons, Nat.lt_irrefl, if_false]
    omega
  | literal | name => exact Nat.le_refl 1
  | @call name args _ ih =>
    have parts : (separated ((args.map Prod.snd).map (Expr.tokens 0))).length ≤
        (separated (args.map Prod.fst)).length := by
      rw [List.map_map]
      exact separated_length_le ih
    rw [Expr.tokens, Expr.allTokens_eq_map, List.length_append, List.length_append]
    exact Nat.add_le_add_right (Nat.add_le_add_right parts 2) 1
  | @parens tokens e _ ih =>
    have := e.tokens_parens 9
    simp only [List.length_cons, List.length_append, List.length_nil]
    omega

theorem flatMap_length_le {α : Type} {short long : α → List TokenKind} {parts : List α}
    (each : ∀ part ∈ parts, (short part).length ≤ (long part).length) :
    (parts.flatMap short).length ≤ (parts.flatMap long).length := by
  rw [List.length_flatMap, List.length_flatMap]
  exact List.sum_le_sum each

theorem TypeName.map_name_ofName (typeName : Option String) :
    (typeName.map TypeName.ofName).map TypeName.name = typeName := by
  cases typeName <;> rfl

theorem VarDecl.Derives.tokens_length_le {tokens : List TokenKind} {decl : VarDecl}
    (derives : VarDecl.Derives tokens decl) : decl.tokens.length ≤ tokens.length := by
  cases derives with
  | @intro name tokens e typeName init =>
    have atInit := init.tokens_length_le
    simp only [VarDecl.tokens, TypeName.map_name_ofName, List.length_append, List.length_cons]
    omega

theorem ForInit.Derives.tokens_length_le {tokens : List TokenKind} {init : ForInit}
    (derives : ForInit.Derives tokens init) : init.tokens.length ≤ tokens.length := by
  cases derives with
  | letVar decl => exact Nat.succ_le_succ decl.tokens_length_le
  | assign derives => exact derives.tokens_length_le

mutual

theorem Stmt.Derives.tokens_length_le : ∀ {tokens : List TokenKind} {s : Stmt},
    Stmt.Derives tokens s → s.tokens.length ≤ tokens.length
  | _, _, .expr derives => by
    have := derives.tokens_length_le
    simp only [Stmt.tokens, List.length_append]
    omega
  | _, _, .letVar derives => by
    have := derives.tokens_length_le
    simp only [Stmt.tokens, List.length_append, List.length_cons]
    omega
  | _, _, .function derives => derives.tokens_length_le
  | _, _, .block derives => derives.tokens_length_le
  | _, _, .ifElse condition thenBranch elseBranch => by
    have atCondition := condition.tokens_length_le
    have atThen := thenBranch.tokens_length_le
    have atElse := elseBranch.tokens_length_le
    simp only [Stmt.tokens_ifElse, ifTokens, List.length_append, List.length_cons]
    omega
  | _, _, .whileLoop condition body => by
    have atCondition := condition.tokens_length_le
    have atBody := body.tokens_length_le
    simp only [Stmt.tokens, List.length_append, List.length_cons]
    omega
  | _, _, .forLoop init condition step body => by
    have atInit := init.tokens_length_le
    have atCondition := condition.tokens_length_le
    have atStep := step.tokens_length_le
    have atBody := body.tokens_length_le
    simp only [Stmt.tokens, List.length_append, List.length_cons]
    omega
  | _, _, .breakLoop | _, _, .continueLoop | _, _, .returnNone => Nat.le_refl 2
  | _, _, .returnSome derives => by
    have := derives.tokens_length_le
    simp only [Stmt.tokens, List.length_append, List.length_cons]
    omega

theorem ElseDerives.tokens_length_le : ∀ {tokens : List TokenKind} {elseBranch : Option Block},
    ElseDerives tokens elseBranch → (elseTokens elseBranch).length ≤ tokens.length
  | _, _, .none => Nat.le_refl 0
  | _, some ⟨_, statements⟩, .block derives => by
    have atBlock := derives.tokens_length_le
    rw [Block.tokens] at atBlock
    rw [elseTokens, List.length_cons, List.length_cons]
    split
    · simp only [braced, List.length_append, List.length_cons] at atBlock
      omega
    · exact Nat.succ_le_succ atBlock
  | _, _, .elseIf derives => by
    have := derives.tokens_length_le
    rw [elseTokens, isElseIf, if_pos rfl, Stmt.allTokens, Stmt.allTokens, List.append_nil]
    exact Nat.succ_le_succ this

theorem Block.Derives.tokens_length_le : ∀ {tokens : List TokenKind} {body : Block},
    Block.Derives tokens body → body.tokens.length ≤ tokens.length
  | _, _, @Block.Derives.intro parts each => by
    have all : ∀ part ∈ parts, part.2.tokens.length ≤ part.1.length :=
      fun part member => (each part member).tokens_length_le
    have : (parts.flatMap (·.2.tokens)).length ≤ (parts.flatMap (·.1)).length :=
      flatMap_length_le all
    rw [Block.tokens, braced, Stmt.allTokens_eq_flatMap, List.flatMap_map]
    simp only [List.length_append, List.length_cons]
    omega

theorem FunctionDecl.Derives.tokens_length_le : ∀ {tokens : List TokenKind} {decl : FunctionDecl},
    FunctionDecl.Derives tokens decl → decl.tokens.length ≤ tokens.length
  | _, _, @FunctionDecl.Derives.intro _ _ _ params _ body => by
    have atBody := body.tokens_length_le
    have header : (params.map Param.ofNames).map Param.tokens = params.map paramTokens :=
      List.map_map
    simp only [FunctionDecl.tokens, header, TypeName.map_name_ofName, List.length_append]
    omega

end

mutual

theorem Expr.tokens_bare : ∀ (e : Expr) (level : Nat), e.bare.tokens level = e.tokens level
  | .literal .., _ | .variable .., _ => rfl
  | .assign _ target value, _ => by
    simp only [Expr.bare, Expr.tokens, target.tokens_bare, value.tokens_bare]
  | .binary _ _ left right, _ => by
    simp only [Expr.bare, Expr.tokens, left.tokens_bare, right.tokens_bare]
  | .unary _ _ operand, _ => by simp only [Expr.bare, Expr.tokens, operand.tokens_bare]
  | .call _ _ _ args _, _ => by
    rw [Expr.bare, Expr.tokens, Expr.tokens, Expr.allTokens_bare args]

theorem Expr.allTokens_bare : ∀ args : List Expr,
    Expr.tokens.allTokens (Expr.bare.bareAll args) = Expr.tokens.allTokens args
  | [] => rfl
  | e :: rest => by
    rw [Expr.bare.bareAll, Expr.tokens.allTokens, Expr.tokens.allTokens, e.tokens_bare,
      Expr.allTokens_bare rest]

end

theorem TypeName.map_name_bare (typeName : Option TypeName) :
    (typeName.map TypeName.bare).map TypeName.name = typeName.map TypeName.name := by
  cases typeName <;> rfl

theorem VarDecl.tokens_bare (decl : VarDecl) : decl.bare.tokens = decl.tokens := by
  simp only [VarDecl.tokens, VarDecl.bare, TypeName.map_name_bare, Expr.tokens_bare]

theorem ForInit.tokens_bare : ∀ init : ForInit, init.bare.tokens = init.tokens
  | .letVar decl => congrArg (List.cons _) decl.tokens_bare
  | .assign e => e.tokens_bare 0

theorem isElseIf_bare : ∀ statements : List Stmt,
    isElseIf (Stmt.allBare statements) = isElseIf statements
  | [] => rfl
  | [s] => by
    cases s with
    | ifElse _ _ _ elseBranch => cases elseBranch <;> rfl
    | _ => rfl
  | s :: next :: rest => by
    cases s with
    | ifElse _ _ _ elseBranch => cases elseBranch <;> rfl
    | _ => rfl

mutual

theorem Stmt.tokens_bare : ∀ s : Stmt, s.bare.tokens = s.tokens
  | .expr _ e => by rw [Stmt.bare, Stmt.tokens, Stmt.tokens, e.tokens_bare]
  | .letVar _ decl => by rw [Stmt.bare, Stmt.tokens, Stmt.tokens, decl.tokens_bare]
  | .function _ decl => decl.tokens_bare
  | .block _ body => body.tokens_bare
  | .ifElse _ condition thenBranch none => by
    rw [Stmt.bare, Stmt.tokens, Stmt.tokens, condition.tokens_bare, thenBranch.tokens_bare]
  | .ifElse _ condition thenBranch (some ⟨_, statements⟩) => by
    rw [Stmt.bare, Block.bare, Stmt.tokens, Stmt.tokens, condition.tokens_bare,
      thenBranch.tokens_bare, isElseIf_bare, Stmt.allTokens_bare statements]
  | .whileLoop _ condition body => by
    rw [Stmt.bare, Stmt.tokens, Stmt.tokens, condition.tokens_bare, body.tokens_bare]
  | .forLoop _ init condition step body => by
    rw [Stmt.bare, Stmt.tokens, Stmt.tokens, init.tokens_bare, condition.tokens_bare,
      step.tokens_bare, body.tokens_bare]
  | .breakLoop _ | .continueLoop _ | .returnValue _ none => rfl
  | .returnValue _ (some value) => congrArg (_ :: · ++ [_]) (value.tokens_bare 0)

theorem Stmt.allTokens_bare : ∀ statements : List Stmt,
    Stmt.allTokens (Stmt.allBare statements) = Stmt.allTokens statements
  | [] => rfl
  | s :: rest => by
    rw [Stmt.allBare, Stmt.allTokens, Stmt.allTokens, s.tokens_bare, Stmt.allTokens_bare rest]

theorem Block.tokens_bare : ∀ body : Block, body.bare.tokens = body.tokens
  | ⟨_, statements⟩ => congrArg braced (Stmt.allTokens_bare statements)

theorem FunctionDecl.tokens_bare : ∀ decl : FunctionDecl, decl.bare.tokens = decl.tokens
  | ⟨_, _, _, params, resultName, body, _, _⟩ => by
    have header : (params.map Param.bare).map Param.tokens = params.map Param.tokens :=
      List.map_map
    rw [FunctionDecl.bare, FunctionDecl.tokens, FunctionDecl.tokens, header,
      TypeName.map_name_bare, body.tokens_bare]

end

/-- What a program derives from is longer than the tokens that it is printed with, by the end of
file at least. -/
theorem Program.Derives.tokens_length_lt {program : Program} {tokens : List TokenKind}
    (derives : program.bare.Derives tokens) : program.tokens.length < tokens.length := by
  obtain ⟨parts, each, rfl, same⟩ := derives
  have all : ∀ part ∈ parts, part.2.tokens.length ≤ part.1.length :=
    fun part member => (each part member).tokens_length_le
  have shape : program.tokens = parts.flatMap (·.2.tokens) := by
    have statements : program.statements.map Stmt.bare = parts.map (·.2) :=
      congrArg Program.statements same
    rw [Program.tokens, ← Stmt.allTokens_bare, Stmt.allTokens_eq_flatMap, Stmt.allBare_eq_map,
      statements, List.flatMap_map]
  rw [shape, List.length_append]
  exact Nat.lt_succ_of_le (flatMap_length_le all)

end Lu
