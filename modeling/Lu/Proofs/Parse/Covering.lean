import Lu.Proofs.Parse.Grammar
import Lu.Proofs.Tree.Bare
import Mathlib.Data.List.Basic

namespace Lu

/-!
The grammar once more, with the places: which tokens each part of a tree covers. A part stands from
where its first token starts to where its last one stops.
-/

/-- One token comes after the other. -/
structure Ordered (tokens : List Token) : Prop where
  forward : ∀ token ∈ tokens, token.span.start ≤ token.span.stop
  apart : tokens.Pairwise fun first later => first.span.stop ≤ later.span.start

/-- From the start of the first token to the end of the last one. -/
def extent (tokens : List Token) : Span :=
  ⟨(tokens.head?.map (·.span.start)).getD 0, (tokens.getLast?.map (·.span.stop)).getD 0⟩

/-- The tokens are those of the parts, with a comma between each two of them. -/
inductive Separated : List (List Token) → List Token → Prop
  | nil : Separated [] []
  | one {part} : Separated [part] part
  | more {part rest tokens} {comma : Token} : comma.kind = .mark .comma → rest ≠ [] →
      Separated rest tokens → Separated (part :: rest) (part ++ comma :: tokens)

/-- The expression covers the tokens, and stands at the level or above it. In parentheses it covers
them too. -/
inductive Expr.Covers : Nat → List Token → Expr → Prop
  | tighter {level tokens e} : level < 9 → Covers (level + 1) tokens e → Covers level tokens e
  | assign {whole left right target value} {mark : Token} : whole = left ++ mark :: right →
      Covers 1 left target → mark.kind = .mark .assign → Covers 0 right value →
      Covers 0 whole (.assign ⟨extent whole, .unset⟩ target value)
  | binary {whole left right l r} {op : BinaryOp} {mark : Token} {level : Nat} :
      whole = left ++ mark :: right → op.level = level → level < 7 → Covers level left l →
      mark.kind = .mark op.mark → Covers (level + 1) right r →
      Covers level whole (.binary ⟨extent whole, .unset⟩ op l r)
  | power {whole left right l r} {mark : Token} : whole = left ++ mark :: right →
      Covers 8 left l → mark.kind = .mark .caret → Covers 7 right r →
      Covers 7 whole (.binary ⟨extent whole, .unset⟩ .pow l r)
  | unary {tokens e} {op : UnaryOp} {mark : Token} : mark.kind = .mark op.mark → Covers 8 tokens e →
      Covers 8 (mark :: tokens) (.unary ⟨extent (mark :: tokens), .unset⟩ op e)
  | literal {value} {token : Token} : Literal token.kind value →
      Covers 9 [token] (.literal ⟨token.span, .unset⟩ value)
  | name {name} {token : Token} : token.kind = .ident name →
      Covers 9 [token] (.variable ⟨token.span, .unset⟩ name .unset)
  | call {whole inner name} {token opening closing : Token} {args : List (List Token × Expr)} :
      whole = token :: opening :: inner ++ [closing] → token.kind = .ident name →
      opening.kind = .mark .leftParen → (∀ arg ∈ args, Covers 0 arg.1 arg.2) →
      Separated (args.map (·.1)) inner → closing.kind = .mark .rightParen →
      Covers 9 whole (.call ⟨extent whole, .unset⟩ name token.span (args.map (·.2)) .unset)
  | parens {whole tokens e} {opening closing : Token} : whole = opening :: tokens ++ [closing] →
      opening.kind = .mark .leftParen → Covers 0 tokens e → closing.kind = .mark .rightParen →
      Covers 9 whole (e.setSpan (extent whole))

/-- A colon and the name of a type, or nothing. -/
inductive TypeAfter : List Token → Option TypeName → Prop
  | none : TypeAfter [] none
  | some {name} {colon token : Token} : colon.kind = .mark .colon → token.kind = .ident name →
      TypeAfter [colon, token] (some ⟨name, token.span⟩)

inductive Param.Covers : List Token → Param → Prop
  | intro {name type} {token colon typeToken : Token} : token.kind = .ident name →
      colon.kind = .mark .colon → typeToken.kind = .ident type →
      Param.Covers [token, colon, typeToken] ⟨name, token.span, ⟨type, typeToken.span⟩, .unset⟩

inductive VarDecl.Covers : List Token → VarDecl → Prop
  | intro {name types typeName tokens e} {token mark : Token} : token.kind = .ident name →
      TypeAfter types typeName → mark.kind = .mark .assign → Expr.Covers 0 tokens e →
      VarDecl.Covers (token :: types ++ mark :: tokens)
        { name, nameSpan := token.span, typeName, init := e }

inductive ForInit.Covers : List Token → ForInit → Prop
  | letVar {tokens decl} {word : Token} : word.kind = .keyword .letK → VarDecl.Covers tokens decl →
      ForInit.Covers (word :: tokens) (.letVar decl)
  | assign {tokens} {e : Expr} : Expr.Covers 0 tokens e → e.isAssign = true →
      ForInit.Covers tokens (.assign e)

mutual

inductive Stmt.Covers : List Token → Stmt → Prop
  | expr {whole tokens e} {semicolon : Token} : whole = tokens ++ [semicolon] →
      Expr.Covers 0 tokens e → semicolon.kind = .mark .semicolon →
      Stmt.Covers whole (.expr (extent whole) e)
  | letVar {whole tokens decl} {word semicolon : Token} : whole = word :: tokens ++ [semicolon] →
      word.kind = .keyword .letK → VarDecl.Covers tokens decl → semicolon.kind = .mark .semicolon →
      Stmt.Covers whole (.letVar (extent whole) decl)
  | function {tokens decl} : FunctionDecl.Covers tokens decl →
      Stmt.Covers tokens (.function (extent tokens) decl)
  | block {tokens body} : Block.Covers tokens body → Stmt.Covers tokens (.block (extent tokens) body)
  | ifElse {whole condition thenTokens elseTokens test thenBranch elseBranch}
      {word opening closing : Token} :
      whole = word :: opening :: condition ++ closing :: thenTokens ++ elseTokens →
      word.kind = .keyword .ifK → opening.kind = .mark .leftParen → Expr.Covers 0 condition test →
      closing.kind = .mark .rightParen → Block.Covers thenTokens thenBranch →
      ElseCovers elseTokens elseBranch →
      Stmt.Covers whole (.ifElse (extent whole) test thenBranch elseBranch)
  | whileLoop {whole condition tokens test body} {word opening closing : Token} :
      whole = word :: opening :: condition ++ closing :: tokens → word.kind = .keyword .whileK →
      opening.kind = .mark .leftParen → Expr.Covers 0 condition test →
      closing.kind = .mark .rightParen → Block.Covers tokens body →
      Stmt.Covers whole (.whileLoop (extent whole) test body)
  | forLoop {whole header condition stepTokens tokens init test step body}
      {word opening first second closing : Token} :
      whole = word :: opening :: header ++ first :: condition ++ second :: stepTokens ++
        closing :: tokens →
      word.kind = .keyword .forK → opening.kind = .mark .leftParen → ForInit.Covers header init →
      first.kind = .mark .semicolon → Expr.Covers 0 condition test →
      second.kind = .mark .semicolon → Expr.Covers 0 stepTokens step →
      closing.kind = .mark .rightParen → Block.Covers tokens body →
      Stmt.Covers whole (.forLoop (extent whole) init test step body)
  | breakLoop {word semicolon : Token} : word.kind = .keyword .breakK →
      semicolon.kind = .mark .semicolon →
      Stmt.Covers [word, semicolon] (.breakLoop (extent [word, semicolon]))
  | continueLoop {word semicolon : Token} : word.kind = .keyword .continueK →
      semicolon.kind = .mark .semicolon →
      Stmt.Covers [word, semicolon] (.continueLoop (extent [word, semicolon]))
  | returnNone {word semicolon : Token} : word.kind = .keyword .returnK →
      semicolon.kind = .mark .semicolon →
      Stmt.Covers [word, semicolon] (.returnValue (extent [word, semicolon]) none)
  | returnSome {whole tokens e} {word semicolon : Token} : whole = word :: tokens ++ [semicolon] →
      word.kind = .keyword .returnK → Expr.Covers 0 tokens e → semicolon.kind = .mark .semicolon →
      Stmt.Covers whole (.returnValue (extent whole) (some e))

/-- After `else` comes a block or another `if`, whose span the block around it has. -/
inductive ElseCovers : List Token → Option Block → Prop
  | none : ElseCovers [] none
  | block {tokens body} {word : Token} : word.kind = .keyword .elseK → Block.Covers tokens body →
      ElseCovers (word :: tokens) (some body)
  | elseIf {tokens test thenBranch elseBranch} {word : Token} : word.kind = .keyword .elseK →
      Stmt.Covers tokens (.ifElse (extent tokens) test thenBranch elseBranch) →
      ElseCovers (word :: tokens)
        (some ⟨extent tokens, [.ifElse (extent tokens) test thenBranch elseBranch]⟩)

inductive Block.Covers : List Token → Block → Prop
  | intro {whole} {opening closing : Token} {parts : List (List Token × Stmt)} :
      whole = opening :: parts.flatMap (·.1) ++ [closing] → opening.kind = .mark .leftBrace →
      (∀ part ∈ parts, Stmt.Covers part.1 part.2) → closing.kind = .mark .rightBrace →
      Block.Covers whole ⟨extent whole, parts.map (·.2)⟩

inductive FunctionDecl.Covers : List Token → FunctionDecl → Prop
  | intro {whole id name inner types resultName tokens body} {word token opening closing : Token}
      {params : List (List Token × Param)} :
      whole = word :: token :: opening :: inner ++ closing :: types ++ tokens →
      word.kind = .keyword .fnK → token.kind = .ident name → opening.kind = .mark .leftParen →
      (∀ param ∈ params, Param.Covers param.1 param.2) → Separated (params.map (·.1)) inner →
      closing.kind = .mark .rightParen → TypeAfter types resultName → Block.Covers tokens body →
      FunctionDecl.Covers whole
        ⟨id, name, token.span, params.map (·.2), resultName, body, extent whole, .unset⟩

end

/-- Statements up to the end of file, which a program covers too. -/
inductive Program.Covers : List Token → Program → Prop
  | intro {whole} {last : Token} {parts : List (List Token × Stmt)} :
      whole = parts.flatMap (·.1) ++ [last] → (∀ part ∈ parts, Stmt.Covers part.1 part.2) →
      last.kind = .eof → Program.Covers whole ⟨parts.map (·.2), extent whole⟩

section Order

variable {front mid back tokens : List Token} {token : Token}

@[simp]
theorem extent_singleton : extent [token] = token.span := rfl

theorem Ordered.append_iff : Ordered (front ++ back) ↔ Ordered front ∧ Ordered back ∧
    ∀ first ∈ front, ∀ later ∈ back, first.span.stop ≤ later.span.start := by
  constructor
  · rintro ⟨forward, apart⟩
    obtain ⟨apartFront, apartBack, between⟩ := List.pairwise_append.mp apart
    obtain ⟨forwardFront, forwardBack⟩ := List.forall_mem_append.mp forward
    exact ⟨⟨forwardFront, apartFront⟩, ⟨forwardBack, apartBack⟩, between⟩
  · rintro ⟨⟨forwardFront, apartFront⟩, ⟨forwardBack, apartBack⟩, between⟩
    exact ⟨List.forall_mem_append.mpr ⟨forwardFront, forwardBack⟩,
      List.pairwise_append.mpr ⟨apartFront, apartBack, between⟩⟩

theorem Ordered.left (ordered : Ordered (front ++ back)) : Ordered front :=
  (append_iff.mp ordered).1

theorem Ordered.right (ordered : Ordered (front ++ back)) : Ordered back :=
  (append_iff.mp ordered).2.1

theorem Ordered.tail (ordered : Ordered (token :: tokens)) : Ordered tokens :=
  @Ordered.right [token] tokens ordered

theorem extent_start (nonempty : front ≠ []) :
    (extent (front ++ back)).start = (extent front).start := by
  obtain ⟨first, rest, rfl⟩ := List.exists_cons_of_ne_nil nonempty
  rfl

theorem extent_stop (nonempty : back ≠ []) :
    (extent (front ++ back)).stop = (extent back).stop := by
  obtain ⟨rest, last, rfl⟩ := back.eq_nil_or_concat'.resolve_left nonempty
  simp [extent]

theorem extent_head_start (rest : List Token) : (extent (token :: rest)).start = token.span.start := rfl

theorem extent_last_stop (rest : List Token) : (extent (rest ++ [token])).stop = token.span.stop :=
  extent_stop (List.cons_ne_nil _ _)

/-- The extent of all tokens begins before each of them and ends behind it. -/
theorem Ordered.within (ordered : Ordered tokens) (member : token ∈ tokens) :
    (extent tokens).start ≤ token.span.start ∧ token.span.stop ≤ (extent tokens).stop := by
  have forward := ordered.forward token member
  obtain ⟨front, back, rfl⟩ := List.append_of_mem member
  obtain ⟨frontOrdered, rest, before⟩ := append_iff.mp ordered
  constructor
  · cases front with
    | nil => exact Nat.le_refl _
    | cons first front =>
      have ahead := frontOrdered.forward first (List.mem_cons_self ..)
      have between := before first (List.mem_cons_self ..) token (List.mem_cons_self ..)
      rw [List.cons_append, extent_head_start]
      omega
  · rw [extent_stop (List.cons_ne_nil _ _)]
    obtain rfl | ⟨back, last, rfl⟩ := back.eq_nil_or_concat'
    · exact Nat.le_refl _
    · have between := (List.pairwise_cons.mp rest.apart).1 last (by simp)
      have behind := rest.forward last (by simp)
      rw [← List.cons_append, extent_last_stop]
      omega

/-- The spans of the first token and the last one make that of all. -/
theorem Ordered.enclosed {first last : Token} (ordered : Ordered tokens)
    (atFirst : tokens = first :: back) (atLast : tokens = front ++ [last]) :
    first.span.merge last.span = extent tokens := by
  have start := ordered.within (show last ∈ tokens by simp [atLast])
  have stop := ordered.within (show first ∈ tokens by simp [atFirst])
  have startSame : (extent tokens).start = first.span.start := by rw [atFirst, extent_head_start]
  have stopSame : (extent tokens).stop = last.span.stop := by rw [atLast, extent_last_stop]
  rw [Span.merge, Nat.min_eq_left (by omega), Nat.max_eq_right (by omega), ← startSame, ← stopSame]

/-- A part of the tokens lies between the ends of all. -/
theorem Ordered.part (ordered : Ordered (front ++ (mid ++ back))) (nonempty : mid ≠ []) :
    (extent (front ++ (mid ++ back))).start ≤ (extent mid).start ∧
      (extent mid).stop ≤ (extent (front ++ (mid ++ back))).stop := by
  obtain ⟨first, rest, shape⟩ := List.exists_cons_of_ne_nil nonempty
  obtain ⟨init, last, shape'⟩ := mid.eq_nil_or_concat'.resolve_left nonempty
  have start := ordered.within (show first ∈ front ++ (mid ++ back) by simp [shape])
  have stop := ordered.within (show last ∈ front ++ (mid ++ back) by simp [shape'])
  have atStart : (extent mid).start = first.span.start := by rw [shape, extent_head_start]
  have atStop : (extent mid).stop = last.span.stop := by rw [shape', extent_last_stop]
  omega

/-- A part ends where a later one has not begun yet. -/
theorem Ordered.disjoint (ordered : Ordered (front ++ (mid ++ back))) (first : front ≠ [])
    (last : back ≠ []) : (extent front).stop ≤ (extent back).start := by
  obtain ⟨init, final, rfl⟩ := front.eq_nil_or_concat'.resolve_left first
  obtain ⟨begin, rest, rfl⟩ := List.exists_cons_of_ne_nil last
  rw [extent_last_stop, extent_head_start]
  exact (append_iff.mp ordered).2.2 final (by simp) begin (by simp)

/-- The spans of the first and the last part make that of the whole. -/
theorem Ordered.merge (ordered : Ordered (front ++ (mid ++ back))) (first : front ≠ [])
    (last : back ≠ []) :
    (extent front).merge (extent back) = extent (front ++ (mid ++ back)) := by
  have frontPart := @Ordered.part [] front (mid ++ back) ordered first
  have backPart := @Ordered.part (front ++ mid) back [] (by simpa using ordered) last
  simp only [List.append_assoc, List.append_nil, List.nil_append] at frontPart backPart
  have start : (extent (front ++ (mid ++ back))).start = (extent front).start := extent_start first
  have stop : (extent (front ++ (mid ++ back))).stop = (extent back).stop := by
    rw [← List.append_assoc]
    exact extent_stop last
  rw [Span.merge, Nat.min_eq_left (by omega), Nat.max_eq_right (by omega), ← start, ← stop]

end Order

section Forgetting

theorem Separated.kinds {parts : List (List Token)} {tokens : List Token}
    (separates : Separated parts tokens) :
    tokens.map Token.kind = separated (parts.map (·.map Token.kind)) := by
  induction separates with
  | nil | one => rfl
  | more isComma nonempty _ ih =>
    obtain ⟨next, rest, rfl⟩ := List.exists_cons_of_ne_nil nonempty
    rw [List.map_append, List.map_cons, ih, isComma]
    rfl

/-- The kinds of the tokens make the tree without its places. -/
theorem Expr.Covers.derives {level : Nat} {tokens : List Token} {e : Expr}
    (covers : Expr.Covers level tokens e) :
    Expr.Derives level (tokens.map Token.kind) e.bare := by
  induction covers with
  | tighter low _ ih => exact .tighter low ih
  | assign shape _ isMark _ ihTarget ihValue =>
    rw [shape, List.map_append, List.map_cons, isMark]
    exact .assign ihTarget ihValue
  | binary shape same low _ isMark _ ihLeft ihRight =>
    rw [shape, List.map_append, List.map_cons, isMark]
    exact .binary same low ihLeft ihRight
  | power shape _ isMark _ ihLeft ihRight =>
    rw [shape, List.map_append, List.map_cons, isMark]
    exact .power ihLeft ihRight
  | unary isMark _ ih =>
    rw [List.map_cons, isMark]
    exact .unary ih
  | literal literal => exact .literal literal
  | name isName =>
    rw [List.map_singleton, isName]
    exact .name
  | @call whole inner name _ _ _ args shape isName isOpening _ separates isClosing ih =>
    have each : ∀ arg ∈ args.map fun arg => (arg.1.map Token.kind, arg.2.bare),
        Expr.Derives 0 arg.1 arg.2 :=
      List.forall_mem_map.mpr ih
    have call : Expr.Derives 9 _ (.call ⟨Span.nowhere, .unset⟩ name Span.nowhere _ .unset) :=
      .call each
    rw [List.map_map] at call
    simpa [shape, isName, isOpening, isClosing, separates.kinds, bare, ExprNote.bare,
      Function.comp_def] using call
  | parens shape isOpening _ isClosing ih =>
    rw [Expr.bare_setSpan, shape, List.map_append, List.map_cons, List.map_singleton, isOpening,
      isClosing]
    exact .parens ih

theorem TypeAfter.kinds {tokens : List Token} {typeName : Option TypeName}
    (after : TypeAfter tokens typeName) :
    tokens.map Token.kind = typeTokens (typeName.map (·.name)) ∧
      typeName.map TypeName.bare = (typeName.map (·.name)).map TypeName.ofName := by
  cases after with
  | none => exact ⟨rfl, rfl⟩
  | some isColon isName => exact ⟨by simp [isColon, isName, typeTokens], rfl⟩

theorem Param.Covers.kinds {tokens : List Token} {param : Param} (covers : Param.Covers tokens param) :
    tokens.map Token.kind = paramTokens (param.name, param.typeName.name) ∧
      param.bare = .ofNames (param.name, param.typeName.name) := by
  cases covers with
  | intro isName isColon isType => exact ⟨by simp [isName, isColon, isType, paramTokens], rfl⟩

/-- The tokens of parameters are made of their names and those of their types. -/
theorem params_kinds {params : List (List Token × Param)} {tokens : List Token}
    (each : ∀ param ∈ params, Param.Covers param.1 param.2)
    (separates : Separated (params.map (·.1)) tokens) :
    ∃ names : List (String × String), tokens.map Token.kind = separated (names.map paramTokens) ∧
      (params.map (·.2)).map Param.bare = names.map Param.ofNames := by
  refine ⟨params.map fun param => (param.2.name, param.2.typeName.name), ?_, ?_⟩
  · rw [separates.kinds, List.map_map, List.map_map]
    exact congrArg _ (List.map_congr_left fun param member => (each param member).kinds.1)
  · rw [List.map_map, List.map_map]
    exact List.map_congr_left fun param member => (each param member).kinds.2

theorem VarDecl.Covers.derives {tokens : List Token} {decl : VarDecl}
    (covers : VarDecl.Covers tokens decl) : VarDecl.Derives (tokens.map Token.kind) decl.bare := by
  cases covers with
  | intro isName after isMark covers =>
    obtain ⟨kinds, bare⟩ := after.kinds
    rw [List.cons_append, List.map_cons, List.map_append, List.map_cons, isName, isMark, kinds,
      VarDecl.bare, bare]
    exact .intro covers.derives

theorem ForInit.Covers.derives {tokens : List Token} {init : ForInit}
    (covers : ForInit.Covers tokens init) : ForInit.Derives (tokens.map Token.kind) init.bare := by
  cases covers with
  | letVar isLet covers =>
    rw [List.map_cons, isLet]
    exact .letVar covers.derives
  | @assign tokens e covers isAssign =>
    exact .assign covers.derives (e.isAssign_bare.trans isAssign)

mutual

theorem Stmt.Covers.derives {tokens : List Token} {s : Stmt} :
    Stmt.Covers tokens s → Stmt.Derives (tokens.map Token.kind) s.bare
  | .expr shape covers isSemicolon => by
    simpa [shape, isSemicolon, Stmt.bare] using Stmt.Derives.expr covers.derives
  | .letVar shape isLet covers isSemicolon => by
    simpa [shape, isLet, isSemicolon, Stmt.bare] using Stmt.Derives.letVar covers.derives
  | .function covers => by
    simpa [Stmt.bare] using Stmt.Derives.function covers.derives
  | .block covers => by
    simpa [Stmt.bare] using Stmt.Derives.block covers.derives
  | .ifElse shape isIf isOpening testCovers isClosing thenCovers elseCovers => by
    simpa [shape, isIf, isOpening, isClosing] using
      Stmt.Derives.ifElse testCovers.derives thenCovers.derives elseCovers.derives
  | .whileLoop shape isWhile isOpening testCovers isClosing bodyCovers => by
    simpa [shape, isWhile, isOpening, isClosing, Stmt.bare] using
      Stmt.Derives.whileLoop testCovers.derives bodyCovers.derives
  | .forLoop shape isFor isOpening initCovers isFirst testCovers isSecond stepCovers isClosing
      bodyCovers => by
    simpa [shape, isFor, isOpening, isFirst, isSecond, isClosing, Stmt.bare] using
      Stmt.Derives.forLoop initCovers.derives testCovers.derives stepCovers.derives
        bodyCovers.derives
  | .breakLoop isBreak isSemicolon => by
    simpa [isBreak, isSemicolon, Stmt.bare] using Stmt.Derives.breakLoop
  | .continueLoop isContinue isSemicolon => by
    simpa [isContinue, isSemicolon, Stmt.bare] using Stmt.Derives.continueLoop
  | .returnNone isReturn isSemicolon => by
    simpa [isReturn, isSemicolon, Stmt.bare] using Stmt.Derives.returnNone
  | .returnSome shape isReturn covers isSemicolon => by
    simpa [shape, isReturn, isSemicolon, Stmt.bare] using Stmt.Derives.returnSome covers.derives

theorem ElseCovers.derives {tokens : List Token} {body : Option Block} :
    ElseCovers tokens body → ElseDerives (tokens.map Token.kind) (body.map Block.bare)
  | .none => .none
  | .block isElse covers => by
    simpa [isElse] using ElseDerives.block covers.derives
  | .elseIf isElse covers => by
    have derives := covers.derives
    rw [Stmt.bare_ifElse] at derives
    simpa [isElse, Block.bare] using ElseDerives.elseIf derives

theorem Block.Covers.derives {tokens : List Token} {body : Block} :
    Block.Covers tokens body → Block.Derives (tokens.map Token.kind) body.bare
  | @Block.Covers.intro _ _ _ parts shape isOpening each isClosing => by
    have derive : ∀ part ∈ parts.map fun part => (part.1.map Token.kind, part.2.bare),
        Stmt.Derives part.1 part.2 :=
      List.forall_mem_map.mpr fun part member => (each part member).derives
    simpa [shape, isOpening, isClosing, Block.bare, List.map_flatMap, List.flatMap_map,
      Function.comp_def] using Block.Derives.intro derive

theorem FunctionDecl.Covers.derives {tokens : List Token} {decl : FunctionDecl} :
    FunctionDecl.Covers tokens decl → FunctionDecl.Derives (tokens.map Token.kind) decl.bare
  | @FunctionDecl.Covers.intro _ _ name _ _ resultName _ _ _ _ _ _ params shape isFn isName isOpening
      each separates isClosing result bodyCovers => by
    obtain ⟨resultKinds, resultBare⟩ := result.kinds
    obtain ⟨names, paramKinds, paramsBare⟩ := params_kinds each separates
    have derives := @FunctionDecl.Derives.intro name _ _ names (resultName.map (·.name))
      bodyCovers.derives
    rw [← paramKinds, ← resultKinds, ← paramsBare, ← resultBare] at derives
    simpa [shape, isFn, isName, isOpening, isClosing, FunctionDecl.bare] using derives

end

theorem Program.Covers.derives {tokens : List Token} {program : Program}
    (covers : Program.Covers tokens program) : program.bare.Derives (tokens.map Token.kind) := by
  obtain ⟨shape, each, isEnd⟩ := covers
  rename_i last parts
  refine ⟨parts.map fun part => (part.1.map Token.kind, part.2.bare),
    List.forall_mem_map.mpr fun part member => (each part member).derives, ?_, ?_⟩
  · simp [shape, isEnd, List.map_flatMap, List.flatMap_map]
  · simp [Program.bare]

end Forgetting

section Ends

variable {tokens : List Token}

theorem Expr.span_setSpan (e : Expr) (span : Span) : (e.setSpan span).span = span := by
  cases e <;> rfl

theorem Expr.Covers.ne_nil {level : Nat} {e : Expr} (covers : Expr.Covers level tokens e) :
    tokens ≠ [] := by
  rintro rfl
  exact Nat.lt_irrefl 0 covers.derives.length_pos

theorem Stmt.Covers.ne_nil {s : Stmt} (covers : Stmt.Covers tokens s) : tokens ≠ [] := by
  rintro rfl
  exact Nat.lt_irrefl 0 covers.derives.length_pos

theorem Block.Covers.ne_nil {body : Block} (covers : Block.Covers tokens body) : tokens ≠ [] := by
  cases covers with
  | intro shape => simp [shape]

theorem FunctionDecl.Covers.ne_nil {decl : FunctionDecl} (covers : FunctionDecl.Covers tokens decl) :
    tokens ≠ [] := by
  cases covers with
  | intro shape => simp [shape]

theorem Expr.Covers.span {level : Nat} {e : Expr} (covers : Expr.Covers level tokens e) :
    e.span = extent tokens := by
  induction covers with
  | tighter _ _ ih => exact ih
  | parens => exact Expr.span_setSpan _ _
  | assign | binary | power | unary | literal | name | call => rfl

theorem Stmt.Covers.span {s : Stmt} (covers : Stmt.Covers tokens s) : s.span = extent tokens := by
  cases covers <;> rfl

theorem Block.Covers.span {body : Block} (covers : Block.Covers tokens body) :
    body.span = extent tokens := by
  cases covers
  rfl

theorem FunctionDecl.Covers.span {decl : FunctionDecl} (covers : FunctionDecl.Covers tokens decl) :
    decl.span = extent tokens := by
  cases covers
  rfl

end Ends

end Lu
