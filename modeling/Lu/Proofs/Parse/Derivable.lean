import Lu.Proofs.Parse.Completeness

namespace Lu

/-!
Which tokens make something of the grammar at all, and how what is missing can be filled in: `nil` for an
expression, `nil = nil` for the first part of a header, and a pair of braces for a block. None of them is
the end of file.
-/

/-- The tokens make an expression of the level. -/
def Expr.Derivable (level : Nat) (tokens : List TokenKind) : Prop :=
  ∃ e, Expr.Derives level tokens e

def VarDecl.Derivable (tokens : List TokenKind) : Prop := ∃ decl, VarDecl.Derives tokens decl

def ForInit.Derivable (tokens : List TokenKind) : Prop := ∃ init, ForInit.Derives tokens init

def Stmt.Derivable (tokens : List TokenKind) : Prop := ∃ s, Stmt.Derives tokens s

/-- The tokens make an `if`. -/
def Stmt.IfDerivable (tokens : List TokenKind) : Prop :=
  ∃ test thenBranch elseBranch,
    Stmt.Derives tokens (.ifElse Span.nowhere test thenBranch elseBranch)

/-- The tokens make statements, one after the other. -/
def Stmt.AllDerivable (tokens : List TokenKind) : Prop :=
  ∃ parts : List (List TokenKind × Stmt), (∀ part ∈ parts, Stmt.Derives part.1 part.2) ∧
    tokens = parts.flatMap (·.1)

def ElseDerivable (tokens : List TokenKind) : Prop := ∃ body, ElseDerives tokens body

def Block.Derivable (tokens : List TokenKind) : Prop := ∃ body, Block.Derives tokens body

def FunctionDecl.Derivable (tokens : List TokenKind) : Prop :=
  ∃ decl, FunctionDecl.Derives tokens decl

section Exprs

variable {level : Nat} {tokens : List TokenKind}

theorem Expr.derivable_nil (most : level ≤ 9) : Expr.Derivable level [.keyword .nilK] := by
  obtain ⟨count, same⟩ := Nat.exists_eq_add_of_le most
  have derives : Expr.Derives 9 [.keyword .nilK] _ := .literal .nilK
  exact ⟨_, .loosen count (Nat.le_of_eq same.symm) (same ▸ derives)⟩

theorem Expr.Derivable.tighter (low : level < 9) :
    Expr.Derivable (level + 1) tokens → Expr.Derivable level tokens :=
  fun ⟨e, derives⟩ => ⟨e, .tighter low derives⟩

theorem VarDecl.derivable (name : String) (typeName : Option String) :
    Expr.Derivable 0 tokens →
    VarDecl.Derivable (.ident name :: (typeTokens typeName ++ .mark .assign :: tokens)) :=
  fun ⟨_, derives⟩ => ⟨_, .intro derives⟩

theorem ForInit.derivable_nil :
    ForInit.Derivable [.keyword .nilK, .mark .assign, .keyword .nilK] := by
  obtain ⟨_, target⟩ := Expr.derivable_nil (show 1 ≤ 9 by decide)
  obtain ⟨_, value⟩ := Expr.derivable_nil (Nat.zero_le 9)
  exact ⟨_, .assign (.assign target value) rfl⟩

/-- An expression that is no assignment can become one. -/
theorem Expr.Derives.becomes_init {e : Expr} (derives : Expr.Derives 0 tokens e) :
    ∃ more, ForInit.Derivable (tokens ++ more) := by
  obtain ⟨_, value⟩ := Expr.derivable_nil (Nat.zero_le 9)
  cases derives with
  | tighter _ derives => exact ⟨_, _, .assign (.assign derives value) rfl⟩
  | assign target value =>
    have whole := ForInit.Derives.assign (.assign target value) rfl
    exact ⟨[], _, by rwa [List.append_nil]⟩
  | @binary op _ _ _ _ _ same =>
    have := op.level_pos
    omega

end Exprs

section Stmts

variable {tokens condition thenTokens elseTokens header stepTokens : List TokenKind}

theorem Block.derivable_nil : Block.Derivable [.mark .leftBrace, .mark .rightBrace] :=
  ⟨_, @Block.Derives.intro [] fun _ member => (List.not_mem_nil member).elim⟩

theorem Stmt.derivable_expr :
    Expr.Derivable 0 tokens → Stmt.Derivable (tokens ++ [.mark .semicolon]) :=
  fun ⟨_, derives⟩ => ⟨_, .expr derives⟩

theorem Stmt.derivable_letVar : VarDecl.Derivable tokens →
    Stmt.Derivable (.keyword .letK :: (tokens ++ [.mark .semicolon])) :=
  fun ⟨_, derives⟩ => ⟨_, .letVar derives⟩

theorem Stmt.derivable_return : Expr.Derivable 0 tokens →
    Stmt.Derivable (.keyword .returnK :: (tokens ++ [.mark .semicolon])) :=
  fun ⟨_, derives⟩ => ⟨_, .returnSome derives⟩

theorem Stmt.derivable_ifElse : Expr.Derivable 0 condition → Block.Derivable thenTokens →
    ElseDerivable elseTokens →
    Stmt.IfDerivable (.keyword .ifK :: .mark .leftParen :: (condition ++ .mark .rightParen ::
      (thenTokens ++ elseTokens))) :=
  fun ⟨_, testDerives⟩ ⟨_, thenDerives⟩ ⟨_, elseDerives⟩ =>
    ⟨_, _, _, by simpa using Stmt.Derives.ifElse testDerives thenDerives elseDerives⟩

theorem Stmt.derivable_whileLoop : Expr.Derivable 0 condition → Block.Derivable tokens →
    Stmt.Derivable (.keyword .whileK :: .mark .leftParen :: (condition ++ .mark .rightParen ::
      tokens)) :=
  fun ⟨_, testDerives⟩ ⟨_, bodyDerives⟩ =>
    ⟨_, by simpa using Stmt.Derives.whileLoop testDerives bodyDerives⟩

theorem Stmt.derivable_forLoop : ForInit.Derivable header → Expr.Derivable 0 condition →
    Expr.Derivable 0 stepTokens → Block.Derivable tokens →
    Stmt.Derivable (.keyword .forK :: .mark .leftParen :: (header ++ .mark .semicolon ::
      (condition ++ .mark .semicolon :: (stepTokens ++ .mark .rightParen :: tokens)))) :=
  fun ⟨_, initDerives⟩ ⟨_, testDerives⟩ ⟨_, stepDerives⟩ ⟨_, bodyDerives⟩ =>
    ⟨_, by simpa using Stmt.Derives.forLoop initDerives testDerives stepDerives bodyDerives⟩

theorem Block.derivable : Stmt.AllDerivable tokens →
    Block.Derivable (.mark .leftBrace :: (tokens ++ [.mark .rightBrace])) := by
  rintro ⟨parts, each, rfl⟩
  exact ⟨_, .intro each⟩

theorem FunctionDecl.derivable (name : String) (params : List (String × String))
    (resultName : Option String) : Block.Derivable tokens →
    FunctionDecl.Derivable (.keyword .fnK :: .ident name :: .mark .leftParen ::
      (separated (params.map paramTokens) ++ .mark .rightParen ::
        (typeTokens resultName ++ tokens))) :=
  fun ⟨_, derives⟩ => ⟨_, by
    simpa using @FunctionDecl.Derives.intro name _ _ params resultName derives⟩

end Stmts

section Inner

theorem Literal.not_eof {kind : TokenKind} {value : Value} (literal : Literal kind value) :
    kind ≠ .eof := by
  cases literal <;> nofun

theorem not_mem_separated {parts : List (List TokenKind)} (each : ∀ part ∈ parts, .eof ∉ part) :
    .eof ∉ separated parts := by
  induction parts with
  | nil => nofun
  | cons part rest ih =>
    obtain ⟨here, later⟩ := List.forall_mem_cons.mp each
    cases rest with
    | nil => exact here
    | cons next rest =>
      rw [separated_cons_cons]
      simp [here, ih later]

theorem Expr.Derives.inner {level : Nat} {tokens : List TokenKind} {e : Expr}
    (derives : Expr.Derives level tokens e) : .eof ∉ tokens := by
  induction derives with
  | tighter _ _ ih => exact ih
  | assign _ _ ih ih' | binary _ _ _ _ ih ih' | power _ _ ih ih' => simp [ih, ih']
  | unary _ ih | parens _ ih => simp [ih]
  | literal literal => simpa using literal.not_eof.symm
  | name => simp
  | call _ ih =>
    have args := not_mem_separated (List.forall_mem_map.mpr ih)
    simpa using args

theorem inner_typeTokens (name : Option String) : .eof ∉ typeTokens name := by
  cases name <;> simp [typeTokens]

theorem VarDecl.Derives.inner {tokens : List TokenKind} {decl : VarDecl}
    (derives : VarDecl.Derives tokens decl) : .eof ∉ tokens := by
  cases derives with
  | intro derives => simp [inner_typeTokens, derives.inner]

theorem ForInit.Derives.inner {tokens : List TokenKind} {init : ForInit}
    (derives : ForInit.Derives tokens init) : .eof ∉ tokens := by
  cases derives with
  | letVar derives => simp [derives.inner]
  | assign derives => exact derives.inner

mutual

theorem Stmt.Derives.inner {tokens : List TokenKind} {s : Stmt} : Stmt.Derives tokens s → .eof ∉ tokens
  | .expr derives | .letVar derives | .returnSome derives => by simp [derives.inner]
  | .function derives => derives.inner
  | .block derives => derives.inner
  | .ifElse testDerives thenDerives elseDerives => by
    simp [testDerives.inner, thenDerives.inner, elseDerives.inner]
  | .whileLoop testDerives bodyDerives => by simp [testDerives.inner, bodyDerives.inner]
  | .forLoop initDerives testDerives stepDerives bodyDerives => by
    simp [initDerives.inner, testDerives.inner, stepDerives.inner, bodyDerives.inner]
  | .breakLoop | .continueLoop | .returnNone => by simp

theorem ElseDerives.inner {tokens : List TokenKind} {body : Option Block} :
    ElseDerives tokens body → .eof ∉ tokens
  | .none => by simp
  | .block derives => by simp [derives.inner]
  | .elseIf derives => by simp [derives.inner]

theorem Block.Derives.inner {tokens : List TokenKind} {body : Block} :
    Block.Derives tokens body → .eof ∉ tokens
  | .intro each => by
    have inner := fun part member => (each part member).inner
    simpa using inner

theorem FunctionDecl.Derives.inner {tokens : List TokenKind} {decl : FunctionDecl} :
    FunctionDecl.Derives tokens decl → .eof ∉ tokens
  | @FunctionDecl.Derives.intro _ _ _ params _ derives => by
    have inner := not_mem_separated (List.forall_mem_map.mpr fun names (_ : names ∈ params) =>
      show .eof ∉ paramTokens names by simp [paramTokens])
    simp [inner, inner_typeTokens, derives.inner]

end

end Inner

end Lu
