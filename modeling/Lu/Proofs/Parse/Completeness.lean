import Lu.Proofs.Parse.Soundness

namespace Lu

/-!
What derives from the grammar is read: one token at a time decides how the parser goes on, and no
token that can follow a part is also a way to continue it.
-/

/-- The token cannot continue an expression of the level. -/
structure TokenKind.Closes (level : Nat) (kind : TokenKind) : Prop where
  noCall : kind ≠ .mark .leftParen
  noAssign : level = 0 → kind ≠ .mark .assign
  noOperator : ∀ op : BinaryOp, level ≤ op.level → kind ≠ .mark op.mark

namespace TokenKind.Closes

variable {kind : TokenKind} {level : Nat}

theorem succ (closes : kind.Closes level) : kind.Closes (level + 1) :=
  ⟨closes.noCall, nofun, fun op atLeast => closes.noOperator op (Nat.le_of_succ_le atLeast)⟩

theorem rightParen : (TokenKind.mark .rightParen).Closes level :=
  ⟨nofun, fun _ => nofun, fun op _ => by cases op <;> nofun⟩

theorem comma : (TokenKind.mark .comma).Closes level :=
  ⟨nofun, fun _ => nofun, fun op _ => by cases op <;> nofun⟩

theorem semicolon : (TokenKind.mark .semicolon).Closes level :=
  ⟨nofun, fun _ => nofun, fun op _ => by cases op <;> nofun⟩

theorem assign : (TokenKind.mark .assign).Closes (level + 1) :=
  ⟨nofun, nofun, fun op _ => by cases op <;> nofun⟩

end TokenKind.Closes

theorem BinaryOp.level_of_mark {op other : BinaryOp} (same : op.mark = other.mark) :
    op.level = other.level := by
  cases op <;> cases other <;> first | rfl | cases same

theorem BinaryOp.level_pos (op : BinaryOp) : 0 < op.level := by
  cases op <;> decide

/-- An operator ends the expressions of all tighter levels. -/
theorem BinaryOp.closes (op : BinaryOp) : (TokenKind.mark op.mark).Closes (op.level + 1) := by
  refine ⟨by cases op <;> nofun, nofun, fun other tighter same => ?_⟩
  have := level_of_mark (TokenKind.mark.inj same)
  omega

/-- In front of a chain and behind it stand tokens that end a tighter expression. -/
theorem Expr.Chain.closes {level : Nat} {first last : Expr} {tokens : List TokenKind}
    {kind : TokenKind} (chain : Expr.Chain level first tokens last) (closes : kind.Closes level)
    (more : List TokenKind) :
    ∃ next rest, tokens ++ kind :: more = next :: rest ∧ next.Closes (level + 1) := by
  cases chain with
  | done => exact ⟨kind, more, rfl, closes.succ⟩
  | more same => exact ⟨_, _, rfl, same ▸ BinaryOp.closes _⟩

/-- A list of expressions begins with an expression. -/
theorem separated_begins {part : List TokenKind × Expr} {rest : List (List TokenKind × Expr)}
    (derive : ∀ other ∈ part :: rest, Expr.Derives 0 other.1 other.2) :
    ∃ kind more, separated ((part :: rest).map (·.1)) = kind :: more ∧ kind.BeginsExpr := by
  obtain ⟨kind, more, shape, begins⟩ := (derive part (List.mem_cons_self ..)).begins
  cases rest with
  | nil => exact ⟨kind, more, shape, begins⟩
  | cons next rest => exact ⟨kind, _, by
    rw [List.map_cons, List.map_cons, separated_cons_cons, shape, List.cons_append], begins⟩

/-- No expression begins with a mark that stands for a missing one. -/
theorem TokenKind.BeginsExpr.not_closing {kind : TokenKind} (begins : kind.BeginsExpr) {m : Mark}
    (closing : m = .rightParen ∨ m = .semicolon) : kind.sameKind (.mark m) = false := by
  cases kind with
  | mark m => obtain rfl | rfl | rfl | rfl := begins <;> obtain rfl | rfl := closing <;> rfl
  | int | float | str | ident | keyword | eof => rfl

theorem TokenKind.BeginsStmt.not_brace {kind : TokenKind} (begins : kind.BeginsStmt) :
    kind.sameKind (.mark .rightBrace) = false := by
  cases kind with
  | mark m => cases m <;> first | rfl | exact begins.elim
  | int | float | str | ident | keyword | eof => rfl

theorem TokenKind.BeginsStmt.not_eof {kind : TokenKind} (begins : kind.BeginsStmt) :
    kind.sameKind .eof = false := by
  cases kind with
  | eof => exact begins.elim
  | int | float | str | ident | keyword | mark => rfl

namespace Parser

/-- What the parsers of expressions accept with the given fuel. -/
structure ExprsAcceptAt (fuel : Nat) : Prop where
  expression {tokens e kind more} : Expr.Derives 0 tokens e → kind.Closes 0 →
    Accepts (expression fuel) (tokens ++ kind :: more) (kind :: more) (·.bare = e)
  operators {index tokens e kind more} : index ≤ 6 → Expr.Derives (index + 1) tokens e →
    kind.Closes (index + 1) →
    Accepts (operators fuel (binaryLevels.drop index)) (tokens ++ kind :: more) (kind :: more)
      (·.bare = e)
  operatorTail {index level left tokens e kind more} : binaryLevels[index]? = some level →
    Expr.Chain (index + 1) left.bare tokens e → kind.Closes (index + 1) →
    Accepts (operatorTail fuel level (binaryLevels.drop (index + 1)) left) (tokens ++ kind :: more)
      (kind :: more) (·.bare = e)
  power {tokens e kind more} : Expr.Derives 7 tokens e → kind.Closes 7 →
    Accepts (power fuel) (tokens ++ kind :: more) (kind :: more) (·.bare = e)
  unary {tokens e kind more} : Expr.Derives 8 tokens e → kind.Closes 8 →
    Accepts (unary fuel) (tokens ++ kind :: more) (kind :: more) (·.bare = e)
  primary {tokens e kind more} : Expr.Derives 9 tokens e → kind.Closes 9 →
    Accepts (primary fuel) (tokens ++ kind :: more) (kind :: more) (·.bare = e)
  name {name kind more} : kind ≠ .mark .leftParen →
    Accepts (nameOrCall fuel) (.ident name :: kind :: more) (kind :: more)
      (·.bare = .variable ⟨Span.nowhere, .unset⟩ name .unset)
  call {name} {args : List (List TokenKind × Expr)} {more} :
    (∀ arg ∈ args, Expr.Derives 0 arg.1 arg.2) →
    Accepts (nameOrCall fuel)
      (.ident name :: .mark .leftParen :: (separated (args.map (·.1)) ++ .mark .rightParen :: more))
      more (·.bare = .call ⟨Span.nowhere, .unset⟩ name Span.nowhere (args.map (·.2)) .unset)
  arguments {parts : List (List TokenKind × Expr)} {before more} : parts ≠ [] →
    (∀ part ∈ parts, Expr.Derives 0 part.1 part.2) →
    Accepts (arguments fuel before) (separated (parts.map (·.1)) ++ .mark .rightParen :: more)
      (.mark .rightParen :: more)
      (·.map Expr.bare = before.reverse.map Expr.bare ++ parts.map (·.2))

section Exprs

variable {fuel : Nat} {tokens more : List TokenKind} {e : Expr} {kind : TokenKind}

theorem ExprsAcceptAt.expression_succ (ih : ExprsAcceptAt fuel) (derives : Expr.Derives 0 tokens e)
    (closes : kind.Closes 0) :
    Accepts (Parser.expression (fuel + 1)) (tokens ++ kind :: more) (kind :: more) (·.bare = e) := by
  have operators {tokens e kind more} (derives : Expr.Derives 1 tokens e) (closes : kind.Closes 1) :
      Accepts (Parser.operators fuel binaryLevels) (tokens ++ kind :: more) (kind :: more)
        (·.bare = e) := ih.operators (Nat.zero_le 6) derives closes
  unfold Parser.expression
  cases derives with
  | tighter _ derives =>
    refine (operators derives closes.succ).bind fun target same => ?_
    exact .bind_eat_other trivial (closes.noAssign rfl) (.pure same)
  | @assign left right target value targetDerives valueDerives =>
    rw [List.append_assoc, List.cons_append]
    refine (operators targetDerives .assign).bind fun found same => .bind_eat trivial ?_
    refine (ih.expression valueDerives closes).bind fun assigned same' => .pure ?_
    rw [Expr.bare_ofAssign, same, same']
  | @binary op _ _ _ _ _ same =>
    have := op.level_pos
    omega

theorem ExprsAcceptAt.operators_succ (ih : ExprsAcceptAt fuel) {index : Nat} (low : index ≤ 6)
    (derives : Expr.Derives (index + 1) tokens e) (closes : kind.Closes (index + 1)) :
    Accepts (Parser.operators (fuel + 1) (binaryLevels.drop index)) (tokens ++ kind :: more)
      (kind :: more) (·.bare = e) := by
  cases atLevel : binaryLevels[index]? with
  | none =>
    obtain rfl : index = 6 := Nat.le_antisymm low (List.getElem?_eq_none_iff.mp atLevel)
    unfold Parser.operators
    exact ih.power derives closes
  | some level =>
    obtain ⟨bound, rfl⟩ := List.getElem?_eq_some_iff.mp atLevel
    have bound' : index < 6 := bound
    obtain ⟨left, rest, first, rfl, firstDerives, chain⟩ := derives.chain (Nat.succ_pos _) (by omega)
    obtain ⟨next, after, shape, nextCloses⟩ := chain.closes closes more
    rw [List.drop_eq_getElem_cons bound, List.append_assoc, shape]
    unfold Parser.operators
    refine (ih.operators bound' firstDerives nextCloses).bind fun found same => ?_
    rw [← shape]
    exact ih.operatorTail atLevel (same ▸ chain) closes

theorem ExprsAcceptAt.operatorTail_succ (ih : ExprsAcceptAt fuel) {index : Nat}
    {level : List (Mark × BinaryOp)} {left : Expr} (atLevel : binaryLevels[index]? = some level)
    (chain : Expr.Chain (index + 1) left.bare tokens e) (closes : kind.Closes (index + 1)) :
    Accepts (Parser.operatorTail (fuel + 1) level (binaryLevels.drop (index + 1)) left)
      (tokens ++ kind :: more) (kind :: more) (·.bare = e) := by
  have low : index + 1 ≤ 6 := (List.getElem?_eq_some_iff.mp atLevel).1
  unfold Parser.operatorTail
  generalize same : left.bare = first at chain
  cases chain with
  | done =>
    have none : operatorIn? level kind = none := by
      refine Option.eq_none_iff_forall_ne_some.mpr fun op found => ?_
      obtain ⟨current, atOp⟩ := (operatorIn?_eq_some atLevel).mp found
      exact closes.noOperator op (Nat.le_of_eq atOp.symm) current
    refine .bind_cursor fun cursor current => ?_
    simp only [current, none]
    exact .pure same
  | @more op _ r _ operand rest atOp derives later =>
    obtain ⟨next, after, shape, nextCloses⟩ := later.closes closes more
    have found : operatorIn? level (.mark op.mark) = some op :=
      (operatorIn?_eq_some atLevel).mpr ⟨rfl, atOp⟩
    rw [List.cons_append, List.cons_append, List.append_assoc, shape]
    refine .bind_cursor fun cursor current => ?_
    simp only [current, found]
    refine .bind_advance fun _ => (ih.operators low derives nextCloses).bind fun right same' => ?_
    rw [← shape]
    refine ih.operatorTail atLevel ?_ closes
    rw [Expr.bare_ofBinary, same, same']
    exact later

theorem ExprsAcceptAt.power_succ (ih : ExprsAcceptAt fuel) (derives : Expr.Derives 7 tokens e)
    (closes : kind.Closes 7) :
    Accepts (Parser.power (fuel + 1)) (tokens ++ kind :: more) (kind :: more) (·.bare = e) := by
  unfold Parser.power
  cases derives with
  | tighter _ derives =>
    refine (ih.unary derives closes.succ).bind fun base same => ?_
    exact .bind_eat_other trivial (closes.noOperator .pow (Nat.le_refl 7)) (.pure same)
  | power baseDerives exponentDerives =>
    rw [List.append_assoc, List.cons_append]
    refine (ih.unary baseDerives (BinaryOp.closes .pow)).bind fun base same =>
      .bind_eat trivial ?_
    refine (ih.power exponentDerives closes).bind fun exponent same' => .pure ?_
    rw [Expr.bare_ofBinary, same, same']
  | binary _ low => omega

/-- What needs no operator does not begin with one. -/
theorem noPrefix (derives : Expr.Derives 9 tokens e) :
    ∃ first rest, tokens = first :: rest ∧ prefixOp? first = none := by
  cases derives with
  | literal literal => exact ⟨_, _, rfl, by cases literal <;> rfl⟩
  | name | call | parens => exact ⟨_, _, rfl, rfl⟩
  | tighter low | binary _ low => omega

theorem ExprsAcceptAt.unary_succ (ih : ExprsAcceptAt fuel) (derives : Expr.Derives 8 tokens e)
    (closes : kind.Closes 8) :
    Accepts (Parser.unary (fuel + 1)) (tokens ++ kind :: more) (kind :: more) (·.bare = e) := by
  unfold Parser.unary
  cases derives with
  | tighter _ derives =>
    obtain ⟨first, rest, rfl, none⟩ := noPrefix derives
    refine .bind_cursor fun _ _ => .bind_cursor fun cursor current => ?_
    simp only [current, none]
    exact ih.primary derives closes.succ
  | @unary op _ _ derives =>
    have found : prefixOp? (.mark op.mark) = some op := prefixOp?_eq_some.mpr rfl
    refine .bind_cursor fun _ _ => .bind_cursor fun cursor current => ?_
    simp only [current, found]
    refine .bind_advance fun _ => (ih.unary derives closes).bind fun operand same => .pure ?_
    rw [Expr.bare, same]
    rfl
  | binary _ low => omega

theorem ExprsAcceptAt.primary_succ (ih : ExprsAcceptAt fuel) (derives : Expr.Derives 9 tokens e)
    (closes : kind.Closes 9) :
    Accepts (Parser.primary (fuel + 1)) (tokens ++ kind :: more) (kind :: more) (·.bare = e) := by
  unfold Parser.primary
  cases derives with
  | @literal first value literal =>
    refine .bind_cursor fun cursor (current : cursor.current.kind = first) => ?_
    simp only [current, literalValue?_eq_some.mpr literal]
    exact .bind_advance fun _ => .pure rfl
  | @name name =>
    refine .bind_cursor fun cursor (current : cursor.current.kind = .ident name) => ?_
    simp only [current, literalValue?]
    exact ih.name closes.noCall
  | @call name args derive =>
    refine .bind_cursor fun cursor (current : cursor.current.kind = .ident name) => ?_
    simp only [current, literalValue?]
    simpa using ih.call derive
  | parens derives =>
    rw [List.cons_append, List.cons_append, List.append_assoc]
    refine .bind_cursor fun cursor (current : cursor.current.kind = .mark .leftParen) => ?_
    simp only [current, literalValue?]
    refine .bind_advance fun _ => (ih.expression derives .rightParen).bind fun inner same =>
      .bind_expect trivial fun close => .pure ?_
    rw [Expr.bare_setSpan, same]
  | tighter low | binary _ low => omega

theorem ExprsAcceptAt.name_succ {name : String} (other : kind ≠ .mark .leftParen) :
    Accepts (Parser.nameOrCall (fuel + 1)) (.ident name :: kind :: more) (kind :: more)
      (·.bare = .variable ⟨Span.nowhere, .unset⟩ name .unset) := by
  unfold Parser.nameOrCall
  exact .bind_ident fun span => .bind_eat_other trivial other (.pure rfl)

theorem ExprsAcceptAt.call_succ (ih : ExprsAcceptAt fuel) {name : String}
    {args : List (List TokenKind × Expr)} (derive : ∀ arg ∈ args, Expr.Derives 0 arg.1 arg.2) :
    Accepts (Parser.nameOrCall (fuel + 1))
      (.ident name :: .mark .leftParen :: (separated (args.map (·.1)) ++ .mark .rightParen :: more))
      more (·.bare = .call ⟨Span.nowhere, .unset⟩ name Span.nowhere (args.map (·.2)) .unset) := by
  unfold Parser.nameOrCall
  refine .bind_ident fun span => .bind_eat trivial ?_
  cases args with
  | nil =>
    refine .bind_cursor fun cursor current => ?_
    have closed : cursor.check (.mark .rightParen) = true := by rw [Cursor.check, current]; rfl
    simp only [closed]
    exact .bind_expect trivial fun close => .pure rfl
  | cons arg rest =>
    have accepts {more} : Accepts (Parser.arguments fuel []) _ (.mark .rightParen :: more) _ :=
      ih.arguments (List.cons_ne_nil arg rest) derive
    obtain ⟨first, after, shape, begins⟩ := separated_begins derive
    rw [shape] at accepts ⊢
    refine .bind_cursor fun cursor current => ?_
    have isOpen : cursor.check (.mark .rightParen) = false := by
      rw [Cursor.check, current]
      exact begins.not_closing (.inl rfl)
    simp only [isOpen]
    refine accepts.bind fun args trees => .bind_expect trivial fun close => .pure ?_
    rw [Expr.bare, Expr.bareAll_eq_map, trees]
    rfl

theorem ExprsAcceptAt.arguments_succ (ih : ExprsAcceptAt fuel)
    {parts : List (List TokenKind × Expr)} {before : List Expr} (nonempty : parts ≠ [])
    (derive : ∀ part ∈ parts, Expr.Derives 0 part.1 part.2) :
    Accepts (Parser.arguments (fuel + 1) before)
      (separated (parts.map (·.1)) ++ .mark .rightParen :: more) (.mark .rightParen :: more)
      (·.map Expr.bare = before.reverse.map Expr.bare ++ parts.map (·.2)) := by
  obtain ⟨part, rest, rfl⟩ := List.exists_cons_of_ne_nil nonempty
  obtain ⟨derives, derive⟩ := List.forall_mem_cons.mp derive
  unfold Parser.arguments
  cases rest with
  | nil =>
    refine (ih.expression derives .rightParen).bind fun arg same => ?_
    exact .bind_eat_other trivial (by simp) (.pure (by simp [same]))
  | cons next rest =>
    have shape : separated ((part :: next :: rest).map (·.1)) ++ .mark .rightParen :: more =
        part.1 ++ .mark .comma ::
          (separated ((next :: rest).map (·.1)) ++ .mark .rightParen :: more) := by
      simp [separated]
    rw [shape]
    refine (ih.expression derives .comma).bind fun arg same => .bind_eat trivial ?_
    refine (ih.arguments (List.cons_ne_nil _ _) derive).mono fun args trees => ?_
    simp [trees, same]

theorem exprsAcceptAt : ∀ fuel, ExprsAcceptAt fuel
  | 0 => by
    constructor <;> intros <;> exact Accepts.outOfFuel
  | fuel + 1 => by
    have ih := exprsAcceptAt fuel
    exact ⟨ih.expression_succ, ih.operators_succ, ih.operatorTail_succ, ih.power_succ, ih.unary_succ,
      ih.primary_succ, ExprsAcceptAt.name_succ, ih.call_succ, ih.arguments_succ⟩

end Exprs

section Parts

variable {fuel : Nat} {tokens more : List TokenKind} {kind : TokenKind}

theorem typeName_accepts {name : String} :
    Accepts typeName (.ident name :: more) more (·.bare = .ofName name) := by
  unfold typeName
  refine .bind_cursor fun cursor (current : cursor.current.kind = .ident name) => ?_
  simp only [current]
  exact .bind_advance fun _ => .pure rfl

theorem typeAfterColon_accepts {name : Option String} (other : kind ≠ .mark .colon) :
    Accepts typeAfterColon (typeTokens name ++ kind :: more) (kind :: more)
      (·.map TypeName.bare = name.map .ofName) := by
  unfold typeAfterColon
  cases name with
  | none => exact .bind_eat_other trivial other (.pure rfl)
  | some name =>
    refine .bind_eat trivial (typeName_accepts.bind fun typeName same => .pure ?_)
    exact congrArg some same

theorem varDecl_accepts {decl : VarDecl} (derives : VarDecl.Derives tokens decl) :
    Accepts (varDecl fuel) (tokens ++ .mark .semicolon :: more) (.mark .semicolon :: more)
      (·.bare = decl) := by
  cases derives with
  | @intro name tokens e typeName derives =>
    unfold varDecl
    simp only [List.cons_append, List.append_assoc]
    have other : TokenKind.mark .assign ≠ .mark .colon := by simp
    refine .bind_ident fun span => (typeAfterColon_accepts other).bind fun found same => ?_
    refine .bind_cursor fun cursor _ => .bind_eat trivial ?_
    refine ((exprsAcceptAt fuel).expression derives .semicolon).bind fun init same' => .pure ?_
    rw [VarDecl.bare, same, same']

theorem condition_accepts {e : Expr} (derives : Expr.Derives 0 tokens e) :
    Accepts (condition fuel) (.mark .leftParen :: (tokens ++ .mark .rightParen :: more)) more
      (·.bare = e) := by
  unfold condition
  refine .bind_expect trivial fun _ => ?_
  refine ((exprsAcceptAt fuel).expression derives .rightParen).bind fun found same => ?_
  exact .bind_expect trivial fun _ => .pure same

theorem parameters_accepts : ∀ (fuel : Nat) {parts : List (String × String)} (before : List Param),
    parts ≠ [] →
    Accepts (parameters fuel before) (separated (parts.map paramTokens) ++ .mark .rightParen :: more)
      (.mark .rightParen :: more)
      (·.map Param.bare = before.reverse.map Param.bare ++ parts.map Param.ofNames)
  | 0, _, _, _ => Accepts.outOfFuel
  | fuel + 1, [], _, nonempty => (nonempty rfl).elim
  | fuel + 1, [(name, type)], before, _ => by
    unfold parameters
    refine .bind_ident fun span => .bind_expect trivial fun _ => ?_
    refine typeName_accepts.bind fun typeName same => .bind_eat_other trivial (by simp) (.pure ?_)
    simp [Param.bare, Param.ofNames, same]
  | fuel + 1, (name, type) :: next :: parts, before, _ => by
    unfold parameters
    refine .bind_ident fun span => .bind_expect trivial fun _ => ?_
    refine typeName_accepts.bind fun typeName same => .bind_eat trivial ?_
    refine (parameters_accepts fuel _ (List.cons_ne_nil next parts)).mono fun params trees => ?_
    simp [trees, Param.bare, Param.ofNames, same]

theorem forInit_accepts {init : ForInit} (derives : ForInit.Derives tokens init) :
    Accepts (forInit fuel) (tokens ++ .mark .semicolon :: more) (.mark .semicolon :: more)
      (·.bare = init) := by
  unfold forInit
  cases derives with
  | letVar derives =>
    refine .bind_eat trivial ((varDecl_accepts derives).bind fun decl same => .pure ?_)
    rw [ForInit.bare, same]
  | @assign _ e derives isAssign =>
    obtain ⟨first, rest, rfl, begins⟩ := derives.begins
    have other : first ≠ .keyword .letK := by
      rintro rfl
      simp [TokenKind.BeginsExpr] at begins
    refine .bind_eat_other trivial other ?_
    refine ((exprsAcceptAt fuel).expression derives .semicolon).bind fun found same => ?_
    have found_assign : found.isAssign = true := by rw [← found.isAssign_bare, same, isAssign]
    simp only [found_assign, if_true]
    exact .pure (by rw [ForInit.bare, same])

end Parts

/-- What the parsers of statements accept with the given fuel. -/
structure StmtsAcceptAt (fuel : Nat) : Prop where
  statement {tokens s kind more} : Stmt.Derives tokens s → kind ≠ .keyword .elseK →
    Accepts (statement fuel) (tokens ++ kind :: more) (kind :: more) (·.bare = s)
  block {tokens body more} : Block.Derives tokens body →
    Accepts (block fuel) (tokens ++ more) more (·.bare = body)
  statements {parts : List (List TokenKind × Stmt)} {before more} :
    (∀ part ∈ parts, Stmt.Derives part.1 part.2) →
    Accepts (statements fuel before) (parts.flatMap (·.1) ++ .mark .rightBrace :: more)
      (.mark .rightBrace :: more)
      (·.map Stmt.bare = before.reverse.map Stmt.bare ++ parts.map (·.2))
  function {tokens decl more} : FunctionDecl.Derives tokens decl →
    Accepts (function fuel) (tokens ++ more) more (·.bare = decl)
  elseBranch {tokens body kind more} : ElseDerives tokens body → kind ≠ .keyword .elseK →
    Accepts (elseBranch fuel) (tokens ++ kind :: more) (kind :: more) (·.map Block.bare = body)

section Stmts

variable {fuel : Nat} {tokens more : List TokenKind} {kind : TokenKind}

theorem StmtsAcceptAt.statement_succ (ih : StmtsAcceptAt fuel) {s : Stmt}
    (derives : Stmt.Derives tokens s) (other : kind ≠ .keyword .elseK) :
    Accepts (Parser.statement (fuel + 1)) (tokens ++ kind :: more) (kind :: more) (·.bare = s) := by
  have expression {tokens e kind more} (derives : Expr.Derives 0 tokens e) (closes : kind.Closes 0) :
      Accepts (Parser.expression fuel) (tokens ++ kind :: more) (kind :: more) (·.bare = e) :=
    (exprsAcceptAt fuel).expression derives closes
  unfold Parser.statement
  cases derives with
  | expr derives =>
    obtain ⟨first, rest, rfl, begins⟩ := derives.begins
    simp only [List.cons_append, List.append_assoc, List.nil_append]
    refine .bind_cursor fun _ _ => .bind_cursor fun cursor current => ?_
    simp only [current]
    split
    case h_10 =>
      refine (expression derives .semicolon).bind fun e same => ?_
      exact .bind_expect trivial fun _ => .bind_covered fun span => .pure (by rw [Stmt.bare, same])
    all_goals simp [TokenKind.BeginsExpr] at begins
  | letVar derives =>
    simp only [List.cons_append, List.append_assoc, List.nil_append]
    refine .bind_cursor fun _ _ => .bind_cursor fun cursor current => ?_
    simp only [current]
    refine .bind_advance fun _ => (varDecl_accepts derives).bind fun decl same => ?_
    exact .bind_expect trivial fun _ => .bind_covered fun span => .pure (by rw [Stmt.bare, same])
  | function derives =>
    have accepts : Accepts (Parser.function fuel) (tokens ++ kind :: more) _ _ := ih.function derives
    obtain ⟨rest, rfl⟩ := derives.begins
    refine .bind_cursor fun _ _ => .bind_cursor fun cursor current => ?_
    simp only [current]
    exact accepts.bind fun decl same => .bind_covered fun _ => .pure (by rw [Stmt.bare, same])
  | block derives =>
    have accepts : Accepts (Parser.block fuel) (tokens ++ kind :: more) _ _ := ih.block derives
    obtain ⟨rest, rfl⟩ := derives.begins
    refine .bind_cursor fun _ _ => .bind_cursor fun cursor current => ?_
    simp only [current]
    exact accepts.bind fun body same => .bind_covered fun _ => .pure (by rw [Stmt.bare, same])
  | ifElse testDerives thenDerives elseDerives =>
    simp only [List.cons_append, List.append_assoc]
    refine .bind_cursor fun _ _ => .bind_cursor fun cursor current => ?_
    simp only [current]
    refine .bind_advance fun _ => (condition_accepts testDerives).bind fun test same => ?_
    refine (ih.block thenDerives).bind fun thenBranch same' => ?_
    refine (ih.elseBranch elseDerives other).bind fun elseBranch same'' => .bind_covered fun _ => ?_
    exact .pure (by rw [Stmt.bare_ifElse, same, same', same''])
  | whileLoop testDerives bodyDerives =>
    simp only [List.cons_append, List.append_assoc]
    refine .bind_cursor fun _ _ => .bind_cursor fun cursor current => ?_
    simp only [current]
    refine .bind_advance fun _ => (condition_accepts testDerives).bind fun test same => ?_
    refine (ih.block bodyDerives).bind fun body same' => .bind_covered fun _ => .pure ?_
    rw [Stmt.bare, same, same']
  | forLoop initDerives testDerives stepDerives bodyDerives =>
    simp only [List.cons_append, List.append_assoc]
    refine .bind_cursor fun _ _ => .bind_cursor fun cursor current => ?_
    simp only [current]
    refine .bind_advance fun _ => .bind_expect trivial fun _ => ?_
    refine (forInit_accepts initDerives).bind fun init same => .bind_expect trivial fun _ => ?_
    refine (expression testDerives .semicolon).bind fun test same' =>
      .bind_expect trivial fun _ => ?_
    refine (expression stepDerives .rightParen).bind fun step same'' =>
      .bind_expect trivial fun _ => ?_
    refine (ih.block bodyDerives).bind fun body same₃ => .bind_covered fun _ => .pure ?_
    rw [Stmt.bare, same, same', same'', same₃]
  | breakLoop | continueLoop =>
    refine .bind_cursor fun _ _ => .bind_cursor fun cursor current => ?_
    simp only [current]
    exact .bind_advance fun _ => .bind_expect trivial fun _ => .bind_covered fun _ => .pure rfl
  | returnNone =>
    refine .bind_cursor fun _ _ => .bind_cursor fun cursor current => ?_
    simp only [current]
    refine .bind_advance fun _ => .bind_cursor fun cursor current => ?_
    have closed : cursor.check (.mark .semicolon) = true := by rw [Cursor.check, current]; rfl
    simp only [closed]
    exact .bind_expect trivial fun _ => .bind_covered fun _ => .pure rfl
  | returnSome derives =>
    obtain ⟨first, rest, rfl, begins⟩ := derives.begins
    simp only [List.cons_append, List.append_assoc, List.nil_append]
    refine .bind_cursor fun _ _ => .bind_cursor fun cursor current => ?_
    simp only [current]
    refine .bind_advance fun _ => .bind_cursor fun cursor current => ?_
    have isOpen : cursor.check (.mark .semicolon) = false := by
      rw [Cursor.check, current]
      exact begins.not_closing (.inr rfl)
    simp only [isOpen, bind_map]
    refine (expression derives .semicolon).bind fun e same => ?_
    refine .bind_expect trivial fun _ => .bind_covered fun span => .pure ?_
    rw [Stmt.bare, Option.map_some, same]

theorem StmtsAcceptAt.block_succ (ih : StmtsAcceptAt fuel) {body : Block}
    (derives : Block.Derives tokens body) :
    Accepts (Parser.block (fuel + 1)) (tokens ++ more) more (·.bare = body) := by
  unfold Parser.block
  cases derives with
  | intro each =>
    simp only [List.cons_append, List.append_assoc, List.nil_append]
    refine .bind_expect trivial fun _ => (ih.statements each).bind fun statements trees => ?_
    refine .bind_expect trivial fun _ => .pure ?_
    rw [Block.bare, Stmt.allBare_eq_map, trees]
    rfl

/-- In front of a statement of a list and behind it stands no `else`. -/
theorem stmts_begin {parts : List (List TokenKind × Stmt)} {last : TokenKind}
    (each : ∀ part ∈ parts, Stmt.Derives part.1 part.2) (other : last ≠ .keyword .elseK)
    (more : List TokenKind) :
    ∃ kind rest, parts.flatMap (·.1) ++ last :: more = kind :: rest ∧ kind ≠ .keyword .elseK := by
  cases parts with
  | nil => exact ⟨last, more, rfl, other⟩
  | cons part parts =>
    obtain ⟨kind, rest, shape, begins⟩ := (each part (List.mem_cons_self ..)).begins
    refine ⟨kind, _, by rw [List.flatMap_cons, shape, List.cons_append, List.cons_append], ?_⟩
    rintro rfl
    exact begins

/-- The first statement of a list is read up to the tokens of the next one. -/
theorem StmtsAcceptAt.statement_first (ih : StmtsAcceptAt fuel) {part : List TokenKind × Stmt}
    {parts : List (List TokenKind × Stmt)} {last : TokenKind}
    (each : ∀ pair ∈ part :: parts, Stmt.Derives pair.1 pair.2) (other : last ≠ .keyword .elseK) :
    ∃ first rest, (part :: parts).flatMap (·.1) ++ last :: more = first :: rest ∧
      first.BeginsStmt ∧ Accepts (Parser.statement fuel) (first :: rest)
        (parts.flatMap (·.1) ++ last :: more) (·.bare = part.2) := by
  obtain ⟨derives, each⟩ := List.forall_mem_cons.mp each
  obtain ⟨next, after, behind, noElse⟩ := stmts_begin each other more
  have accepts : Accepts (Parser.statement fuel) (part.1 ++ next :: after) _ _ :=
    ih.statement derives noElse
  obtain ⟨first, rest, shape, begins⟩ := derives.begins
  rw [List.flatMap_cons, List.append_assoc, behind]
  rw [shape] at accepts ⊢
  exact ⟨first, _, rfl, begins, accepts⟩

theorem StmtsAcceptAt.statements_succ (ih : StmtsAcceptAt fuel)
    {parts : List (List TokenKind × Stmt)} {before : List Stmt}
    (each : ∀ part ∈ parts, Stmt.Derives part.1 part.2) :
    Accepts (Parser.statements (fuel + 1) before)
      (parts.flatMap (·.1) ++ .mark .rightBrace :: more) (.mark .rightBrace :: more)
      (·.map Stmt.bare = before.reverse.map Stmt.bare ++ parts.map (·.2)) := by
  unfold Parser.statements
  cases parts with
  | nil =>
    refine .bind_cursor fun cursor current => ?_
    have closed : cursor.check (.mark .rightBrace) = true := by rw [Cursor.check, current]; rfl
    simp only [closed, if_true]
    exact .pure (List.append_nil _).symm
  | cons part parts =>
    have last : TokenKind.mark .rightBrace ≠ .keyword .elseK := by simp
    obtain ⟨first, rest, shape, begins, accepts⟩ := ih.statement_first each last
    rw [shape]
    refine .bind_cursor fun cursor current => ?_
    have isOpen : cursor.check (.mark .rightBrace) = false := by
      rw [Cursor.check, current, begins.not_brace]
    simp only [isOpen]
    refine .bind_cursor fun cursor current => ?_
    have goesOn : cursor.isAtEnd = false := by rw [Cursor.isAtEnd, current, begins.not_eof]
    simp only [goesOn]
    refine accepts.bind fun s same => ?_
    refine (ih.statements (List.forall_mem_cons.mp each).2).mono fun statements trees => ?_
    simp [trees, same]

/-- The part of a function after its parameters. -/
theorem StmtsAcceptAt.functionRest (ih : StmtsAcceptAt fuel) {start : Token} {name : String}
    {nameSpan : Span} {params : List Param} {parts : List (String × String)}
    {resultName : Option String} {body : Block} (derives : Block.Derives tokens body)
    (trees : params.map Param.bare = parts.map Param.ofNames) :
    Accepts (do
        let _ ← expect (.mark .rightParen)
        let resultName ← typeAfterColon
        let body ← Parser.block fuel
        let id ← freshFunction
        return ⟨id, name, nameSpan, params, resultName, body, start.span.merge body.span, .unset⟩ :
          Parser FunctionDecl)
      (.mark .rightParen :: (typeTokens resultName ++ (tokens ++ more))) more
      (·.bare = ⟨0, name, Span.nowhere, parts.map .ofNames, resultName.map .ofName, body,
        Span.nowhere, .unset⟩) := by
  have accepts : Accepts (Parser.block fuel) (tokens ++ more) _ _ := ih.block derives
  obtain ⟨rest, rfl⟩ := derives.begins
  have other : TokenKind.mark .leftBrace ≠ .mark .colon := by simp
  refine .bind_expect trivial fun _ => (typeAfterColon_accepts other).bind fun found same => ?_
  refine accepts.bind fun body same' => .bind_freshFunction fun id => .pure ?_
  rw [FunctionDecl.bare, trees, same, same']

theorem StmtsAcceptAt.function_succ (ih : StmtsAcceptAt fuel) {decl : FunctionDecl}
    (derives : FunctionDecl.Derives tokens decl) :
    Accepts (Parser.function (fuel + 1)) (tokens ++ more) more (·.bare = decl) := by
  unfold Parser.function
  cases derives with
  | @intro name tokens body parts resultName derives =>
    simp only [List.cons_append, List.append_assoc]
    refine .bind_expect trivial fun start => .bind_ident fun nameSpan => ?_
    refine .bind_expect trivial fun _ => ?_
    cases parts with
    | nil =>
      refine .bind_cursor fun cursor current => ?_
      have closed : cursor.check (.mark .rightParen) = true := by rw [Cursor.check, current]; rfl
      simp only [closed]
      exact ih.functionRest derives rfl
    | cons part parts =>
      have accepts {more : List TokenKind} : Accepts (parameters fuel []) _
          (.mark .rightParen :: more) _ := parameters_accepts fuel [] (List.cons_ne_nil part parts)
      obtain ⟨rest, shape⟩ : ∃ rest, separated ((part :: parts).map paramTokens) =
          .ident part.1 :: rest := by
        cases parts <;> exact ⟨_, rfl⟩
      rw [shape] at accepts ⊢
      refine .bind_cursor fun cursor current => ?_
      have isOpen : cursor.check (.mark .rightParen) = false := by rw [Cursor.check, current]; rfl
      simp only [isOpen]
      exact accepts.bind fun params trees => ih.functionRest derives trees

theorem StmtsAcceptAt.elseBranch_succ (ih : StmtsAcceptAt fuel) {body : Option Block}
    (derives : ElseDerives tokens body) (other : kind ≠ .keyword .elseK) :
    Accepts (Parser.elseBranch (fuel + 1)) (tokens ++ kind :: more) (kind :: more)
      (·.map Block.bare = body) := by
  unfold Parser.elseBranch
  cases derives with
  | none => exact .bind_eat_other trivial other (.pure rfl)
  | block derives =>
    have accepts : Accepts (Parser.block fuel) (_ ++ kind :: more) _ _ := ih.block derives
    obtain ⟨rest, rfl⟩ := derives.begins
    refine .bind_eat trivial (.bind_cursor fun cursor current => ?_)
    have noIf : cursor.check (.keyword .ifK) = false := by rw [Cursor.check, current]; rfl
    simp only [noIf]
    exact accepts.bind fun body same => .pure (congrArg some same)
  | @elseIf tokens _ _ _ derives =>
    have accepts : Accepts (Parser.statement fuel) (_ ++ kind :: more) _ _ :=
      ih.statement derives other
    obtain ⟨rest, rfl⟩ : ∃ rest, tokens = .keyword .ifK :: rest := by
      cases derives
      exact ⟨_, rfl⟩
    refine .bind_eat trivial (.bind_cursor fun cursor current => ?_)
    have isIf : cursor.check (.keyword .ifK) = true := by rw [Cursor.check, current]; rfl
    simp only [isIf]
    refine accepts.bind fun s same => .pure ?_
    rw [Option.map_some, Block.bare, Stmt.allBare_eq_map, List.map_cons, same]
    rfl

theorem stmtsAcceptAt : ∀ fuel, StmtsAcceptAt fuel
  | 0 => by
    constructor <;> intros <;> exact Accepts.outOfFuel
  | fuel + 1 => by
    have ih := stmtsAcceptAt fuel
    exact ⟨ih.statement_succ, ih.block_succ, ih.statements_succ, ih.function_succ,
      ih.elseBranch_succ⟩

end Stmts

theorem programStatements_accepts : ∀ (fuel : Nat) {parts : List (List TokenKind × Stmt)}
    (before : List Stmt), (∀ part ∈ parts, Stmt.Derives part.1 part.2) →
    Accepts (programStatements fuel before) (parts.flatMap (·.1) ++ [.eof]) [.eof]
      (·.map Stmt.bare = before.reverse.map Stmt.bare ++ parts.map (·.2))
  | 0, _, _, _ => Accepts.outOfFuel
  | fuel + 1, [], before, _ => by
    unfold programStatements
    refine .bind_cursor fun cursor current => ?_
    have atEnd : cursor.isAtEnd = true := by rw [Cursor.isAtEnd, current]; rfl
    simp only [atEnd]
    exact .pure (List.append_nil _).symm
  | fuel + 1, part :: parts, before, each => by
    have last : TokenKind.eof ≠ .keyword .elseK := by simp
    obtain ⟨first, rest, shape, begins, accepts⟩ := (stmtsAcceptAt fuel).statement_first each last
    unfold programStatements
    rw [shape]
    refine .bind_cursor fun cursor current => ?_
    have goesOn : cursor.isAtEnd = false := by rw [Cursor.isAtEnd, current, begins.not_eof]
    simp only [goesOn]
    refine accepts.bind fun s same => ?_
    have each := (List.forall_mem_cons.mp each).2
    refine (programStatements_accepts fuel _ each).mono fun statements trees => ?_
    simp [trees, same]

theorem program_accepts (fuel : Nat) {tokens : List TokenKind} {p : Program}
    (derives : p.Derives tokens) : Accepts (program fuel) tokens [.eof] (·.bare = p) := by
  obtain ⟨parts, each, rfl, rfl⟩ := derives
  have accepts := programStatements_accepts fuel [] each
  obtain ⟨first, rest, shape⟩ : ∃ first rest, parts.flatMap (·.1) ++ [.eof] = first :: rest :=
    List.exists_cons_of_ne_nil (by simp)
  unfold program
  rw [shape] at accepts ⊢
  refine .bind_cursor fun _ _ => accepts.bind fun statements trees => ?_
  refine .bind_cursor fun _ _ => .pure ?_
  rw [Program.bare, trees]
  rfl

end Parser

/-- What derives from the tokens is read, if the fuel lasts. -/
theorem parse?_accepts {tokens : List Token} {p : Program}
    (derives : p.Derives (tokens.map Token.kind)) {result : Except ParseError Program}
    (run : parse? tokens = some result) : ∃ program, result = .ok program ∧ program.bare = p := by
  have accepts := Parser.program_accepts (parseFuel tokens) derives ⟨Cursor.ofTokens tokens, 0⟩ rfl
  unfold parse? at run
  generalize Parser.program _ _ = found at accepts run
  cases found with
  | done program after =>
    cases run
    exact ⟨program, rfl, accepts.2⟩
  | failed e => exact accepts.elim
  | outOfFuel => cases run

end Lu
