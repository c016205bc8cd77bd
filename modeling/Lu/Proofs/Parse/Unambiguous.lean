import Lu.Proofs.Parse.Covering

namespace Lu

/-!
Tokens determine the places in the expression that they make: where the outermost operator stands is
told by the tokens that are no parentheses, and how many parentheses are around it by those in front.
-/

def TokenKind.opens : TokenKind → Bool
  | .mark .leftParen => true
  | _ => false

def TokenKind.closes : TokenKind → Bool
  | .mark .rightParen => true
  | _ => false

/-- How many of the tokens are no parentheses. -/
def weight (tokens : List TokenKind) : Nat := tokens.countP fun kind => !(kind.opens || kind.closes)

/-- There are as many opening parentheses as closing ones. -/
def Paired (tokens : List TokenKind) : Prop :=
  tokens.countP TokenKind.opens = tokens.countP TokenKind.closes

/-- How many tokens other than parentheses an expression is made of. -/
def Expr.weight : Expr → Nat
  | .literal .. | .variable .. => 1
  | .assign _ target value => target.weight + (value.weight + 1)
  | .binary _ _ left right => left.weight + (right.weight + 1)
  | .unary _ _ operand => operand.weight + 1
  | .call _ _ _ args _ => weights args - 1 + 1
where
  /-- Each argument counts one comma. -/
  weights : List Expr → Nat
    | [] => 0
    | e :: rest => e.weight + 1 + weights rest

section Counts

variable {front back front' back' tokens : List TokenKind} {kind : TokenKind}

@[simp] theorem weight_nil : weight [] = 0 := rfl

@[simp] theorem weight_append : weight (front ++ back) = weight front + weight back :=
  List.countP_append ..

@[simp] theorem weight_cons :
    weight (kind :: tokens) = weight tokens + if kind.opens || kind.closes then 0 else 1 := by
  unfold weight
  rw [List.countP_cons]
  split <;> split <;> simp_all

theorem Paired.append (first : Paired front) (last : Paired back) : Paired (front ++ back) := by
  unfold Paired at *
  rw [List.countP_append, List.countP_append, first, last]

theorem Paired.cons (other : kind.opens = false) (other' : kind.closes = false)
    (paired : Paired tokens) : Paired (kind :: tokens) := by
  unfold Paired at *
  rw [List.countP_cons, List.countP_cons, paired, other, other']

theorem Paired.parens (paired : Paired tokens) :
    Paired (.mark .leftParen :: tokens ++ [.mark .rightParen]) := by
  unfold Paired at *
  simp [List.countP_cons, TokenKind.opens, TokenKind.closes, paired]

theorem Literal.no_paren {value : Value} (literal : Literal kind value) :
    kind.opens = false ∧ kind.closes = false := by
  cases literal <;> exact ⟨rfl, rfl⟩

theorem BinaryOp.no_paren (op : BinaryOp) :
    (TokenKind.mark op.mark).opens = false ∧ (TokenKind.mark op.mark).closes = false := by
  cases op <;> exact ⟨rfl, rfl⟩

theorem UnaryOp.no_paren (op : UnaryOp) :
    (TokenKind.mark op.mark).opens = false ∧ (TokenKind.mark op.mark).closes = false := by
  cases op <;> exact ⟨rfl, rfl⟩

theorem paired_separated {parts : List (List TokenKind)} (each : ∀ part ∈ parts, Paired part) :
    Paired (separated parts) := by
  induction parts with
  | nil => rfl
  | cons part rest ih =>
    obtain ⟨here, later⟩ := List.forall_mem_cons.mp each
    cases rest with
    | nil => exact here
    | cons next rest => exact here.append ((ih later).cons rfl rfl)

theorem Expr.Derives.paired {level : Nat} {e : Expr} (derives : Expr.Derives level tokens e) :
    Paired tokens := by
  induction derives with
  | tighter _ _ ih => exact ih
  | assign _ _ ih ih' | power _ _ ih ih' => exact ih.append (ih'.cons rfl rfl)
  | @binary op _ _ _ _ _ _ _ _ _ ih ih' => exact ih.append (ih'.cons op.no_paren.1 op.no_paren.2)
  | @unary op _ _ _ ih => exact ih.cons op.no_paren.1 op.no_paren.2
  | literal literal => exact Paired.cons literal.no_paren.1 literal.no_paren.2 rfl
  | name => exact Paired.cons rfl rfl rfl
  | call _ ih =>
    have args := paired_separated (List.forall_mem_map.mpr ih)
    exact args.parens.cons rfl rfl
  | parens _ ih => exact ih.parens

theorem weight_separated {args : List (List TokenKind × Expr)}
    (each : ∀ arg ∈ args, Lu.weight arg.1 = arg.2.weight) :
    Lu.weight (separated (args.map (·.1))) = Expr.weight.weights (args.map (·.2)) - 1 := by
  induction args with
  | nil => rfl
  | cons arg rest ih =>
    obtain ⟨here, later⟩ := List.forall_mem_cons.mp each
    cases rest with
    | nil => simpa [separated, Expr.weight.weights] using here
    | cons next rest =>
      have more := ih later
      simp only [List.map_cons, separated_cons_cons, weight_append, weight_cons, here,
        TokenKind.opens, TokenKind.closes, Expr.weight.weights] at more ⊢
      simp only [Bool.or_false, Bool.false_eq_true, if_false]
      omega

theorem Expr.Derives.weight {level : Nat} {e : Expr} (derives : Expr.Derives level tokens e) :
    Lu.weight tokens = e.weight := by
  induction derives with
  | tighter _ _ ih => exact ih
  | assign _ _ ih ih' | power _ _ ih ih' =>
    simp [ih, ih', Expr.weight, TokenKind.opens, TokenKind.closes]
  | @binary op _ _ _ _ _ _ _ _ _ ih ih' => simp [ih, ih', Expr.weight, op.no_paren]
  | @unary op _ _ _ ih => simp [ih, Expr.weight, op.no_paren]
  | literal literal => simp [Expr.weight, literal.no_paren]
  | name => rfl
  | call _ ih => simp [weight_separated ih, Expr.weight, TokenKind.opens, TokenKind.closes]
  | parens _ ih => simp [ih, TokenKind.opens, TokenKind.closes]

end Counts

/-- The tokens, with the same number of parentheses on both sides. -/
inductive Enclosed (inner : List Token) : List Token → Prop
  | here : Enclosed inner inner
  | parens {tokens} {opening closing : Token} : opening.kind = .mark .leftParen →
      Enclosed inner tokens → closing.kind = .mark .rightParen →
      Enclosed inner (opening :: tokens ++ [closing])

/-- An expression without the parentheses around it. -/
inductive Expr.Core (whole : List Token) : Expr → Prop
  | assign {left right target value} {mark : Token} : whole = left ++ mark :: right →
      Expr.Covers 1 left target → mark.kind = .mark .assign → Expr.Covers 0 right value →
      Core whole (.assign ⟨extent whole, .unset⟩ target value)
  | binary {left right l r op} {level other : Nat} {mark : Token} : whole = left ++ mark :: right →
      Expr.Covers level left l → mark.kind = .mark op.mark → Expr.Covers other right r →
      Core whole (.binary ⟨extent whole, .unset⟩ op l r)
  | unary {tokens e} {op : UnaryOp} {mark : Token} : whole = mark :: tokens →
      mark.kind = .mark op.mark → Expr.Covers 8 tokens e →
      Core whole (.unary ⟨extent whole, .unset⟩ op e)
  | literal {value} {token : Token} : whole = [token] → Literal token.kind value →
      Core whole (.literal ⟨extent whole, .unset⟩ value)
  | name {name} {token : Token} : whole = [token] → token.kind = .ident name →
      Core whole (.variable ⟨extent whole, .unset⟩ name .unset)
  | call {inner name} {token opening closing : Token} {args : List (List Token × Expr)} :
      whole = token :: opening :: inner ++ [closing] → token.kind = .ident name →
      (∀ arg ∈ args, Expr.Covers 0 arg.1 arg.2) → Separated (args.map (·.1)) inner →
      Core whole (.call ⟨extent whole, .unset⟩ name token.span (args.map (·.2)) .unset)

section Cores

variable {tokens inner inner' whole : List Token}

theorem Expr.setSpan_setSpan (e : Expr) (first last : Span) :
    (e.setSpan first).setSpan last = e.setSpan last := by
  cases e <;> rfl

/-- Behind the parentheses there is a core. -/
theorem Expr.Covers.core {level : Nat} {e : Expr} (covers : Expr.Covers level tokens e) :
    ∃ inner core, Expr.Core inner core ∧ Enclosed inner tokens ∧ e = core.setSpan (extent tokens) := by
  induction covers with
  | tighter _ _ ih => exact ih
  | assign shape target isMark value => exact ⟨_, _, .assign shape target isMark value, .here, rfl⟩
  | binary shape _ _ left isMark right => exact ⟨_, _, .binary shape left isMark right, .here, rfl⟩
  | power shape left isMark right =>
    have isMark' : _ = TokenKind.mark BinaryOp.pow.mark := isMark
    exact ⟨_, _, .binary shape left isMark' right, .here, rfl⟩
  | unary isMark operand => exact ⟨_, _, .unary rfl isMark operand, .here, rfl⟩
  | literal literal => exact ⟨_, _, .literal rfl literal, .here, rfl⟩
  | name isName => exact ⟨_, _, .name rfl isName, .here, rfl⟩
  | call shape isName _ each separates =>
    exact ⟨_, _, .call shape isName each separates, .here, rfl⟩
  | parens shape isOpening _ isClosing ih =>
    obtain ⟨inner, core, isCore, enclosed, rfl⟩ := ih
    subst shape
    exact ⟨inner, core, isCore, .parens isOpening enclosed isClosing, Expr.setSpan_setSpan ..⟩

/-- How the tokens are enclosed. -/
theorem Enclosed.split (enclosed : Enclosed inner whole) : ∃ front back,
    whole = front ++ (inner ++ back) ∧ (∀ token ∈ front, token.kind = .mark .leftParen) ∧
      (∀ token ∈ back, token.kind = .mark .rightParen) ∧ front.length = back.length := by
  induction enclosed with
  | here => exact ⟨[], [], by simp, nofun, nofun, rfl⟩
  | @parens tokens opening closing isOpening _ isClosing ih =>
    obtain ⟨front, back, rfl, opens, closes, same⟩ := ih
    refine ⟨opening :: front, back ++ [closing], by simp, List.forall_mem_cons.mpr ⟨isOpening, opens⟩,
      ?_, by simp [same]⟩
    exact List.forall_mem_append.mpr ⟨closes, List.forall_mem_singleton.mpr isClosing⟩

/-- Two tokens that are no parentheses, with the same number of such tokens in front. -/
theorem split_unique {front back front' back' : List Token} {mark mark' : Token}
    (same : front ++ mark :: back = front' ++ mark' :: back')
    (inner : weight [mark.kind] = 1) (inner' : weight [mark'.kind] = 1)
    (weights : weight (front.map Token.kind) = weight (front'.map Token.kind)) :
    front = front' ∧ mark = mark' ∧ back = back' := by
  simp only [weight_cons, weight_nil] at inner inner'
  induction front generalizing front' with
  | nil =>
    cases front' with
    | nil => simpa using same
    | cons first rest =>
      obtain ⟨rfl, -⟩ := List.cons.inj same
      simp only [List.map_cons, List.map_nil, weight_cons, weight_nil] at weights
      omega
  | cons first rest ih =>
    cases front' with
    | nil =>
      obtain ⟨rfl, -⟩ := List.cons.inj same
      simp only [List.map_cons, List.map_nil, weight_cons, weight_nil] at weights
      omega
    | cons first' rest' =>
      obtain ⟨rfl, tails⟩ := List.cons.inj same
      simp only [List.map_cons, weight_cons] at weights
      obtain ⟨rfl, rfl, rfl⟩ := ih tails (by omega)
      exact ⟨rfl, rfl, rfl⟩

theorem weight_of_opens {front : List Token} (opens : ∀ token ∈ front, token.kind = .mark .leftParen) :
    weight (front.map Token.kind) = 0 ∧ (front.map Token.kind).countP TokenKind.opens = front.length ∧
      (front.map Token.kind).countP TokenKind.closes = 0 := by
  have kinds : front.map Token.kind = List.replicate front.length (.mark .leftParen) :=
    List.map_eq_replicate_iff.mpr opens
  rw [kinds]
  simp [weight, List.countP_replicate, TokenKind.opens, TokenKind.closes]

/-- The same tokens enclose only one core that has a given number of tokens in front of a token. -/
theorem Enclosed.unique {left right left' right' : List Token} {mark mark' : Token}
    (enclosed : Enclosed (left ++ mark :: right) whole)
    (enclosed' : Enclosed (left' ++ mark' :: right') whole)
    (noParen : weight [mark.kind] = 1) (noParen' : weight [mark'.kind] = 1)
    (paired : Paired (left.map Token.kind)) (paired' : Paired (left'.map Token.kind))
    (weights : weight (left.map Token.kind) = weight (left'.map Token.kind)) :
    left = left' ∧ mark = mark' ∧ right = right' := by
  obtain ⟨front, back, shape, opens, -, length⟩ := enclosed.split
  obtain ⟨front', back', shape', opens', -, length'⟩ := enclosed'.split
  obtain ⟨weightless, opening, closing⟩ := weight_of_opens opens
  obtain ⟨weightless', opening', closing'⟩ := weight_of_opens opens'
  have same : (front ++ left) ++ mark :: (right ++ back) =
      (front' ++ left') ++ mark' :: (right' ++ back') := by
    simpa using shape.symm.trans shape'
  obtain ⟨lefts, rfl, rights⟩ := split_unique same noParen noParen' (by
    rw [List.map_append, List.map_append, weight_append, weight_append, weightless, weightless',
      weights])
  -- What is in front of the mark opens as many parentheses as are around the core.
  have fronts : front.length = front'.length := by
    have counts := congrArg (fun tokens => (tokens.map Token.kind).countP TokenKind.opens) lefts
    have counts' := congrArg (fun tokens => (tokens.map Token.kind).countP TokenKind.closes) lefts
    simp only [List.map_append, List.countP_append, opening, closing, opening', closing']
      at counts counts'
    unfold Paired at paired paired'
    omega
  obtain ⟨-, rfl⟩ := List.append_inj lefts fronts
  obtain ⟨rfl, -⟩ := List.append_inj' rights (by omega)
  exact ⟨rfl, rfl, rfl⟩

/-- Parts with commas between them are told apart by their numbers of tokens. -/
theorem Separated.unique {parts parts' : List (List Token)} (separates : Separated parts tokens)
    (separates' : Separated parts' tokens)
    (weights : parts.map (fun part => weight (part.map Token.kind)) =
      parts'.map fun part => weight (part.map Token.kind)) : parts = parts' := by
  induction separates generalizing parts' with
  | nil => exact (List.map_eq_nil_iff.mp weights.symm).symm
  | one =>
    cases separates' with
    | nil => cases weights
    | one => rfl
    | more _ nonempty =>
      cases (List.map_eq_nil_iff.mp (List.cons.inj weights).2.symm) 
      exact (nonempty rfl).elim
  | @more part rest tokens comma isComma nonempty _ ih =>
    generalize whole : part ++ comma :: tokens = all at separates'
    cases separates' with
    | nil => simp at whole
    | one =>
      cases (List.map_eq_nil_iff.mp (List.cons.inj weights).2)
      exact (nonempty rfl).elim
    | more isComma' _ separates' =>
      obtain ⟨first, later⟩ := List.cons.inj weights
      have noParen : weight [comma.kind] = 1 := by rw [isComma]; rfl
      obtain ⟨rfl, -, rfl⟩ := split_unique whole noParen (by rw [isComma']; rfl) first
      rw [ih separates' later]

theorem Enclosed.length (enclosed : Enclosed inner whole) : inner.length ≤ whole.length := by
  induction enclosed with
  | here => exact Nat.le_refl _
  | parens _ _ _ ih => simp; omega

theorem Separated.length {parts : List (List Token)} (separates : Separated parts tokens) :
    ∀ part ∈ parts, part.length ≤ tokens.length := by
  induction separates with
  | nil => exact nofun
  | one => exact List.forall_mem_singleton.mpr (Nat.le_refl _)
  | more _ _ _ ih =>
    refine List.forall_mem_cons.mpr ⟨by simp, fun part member => ?_⟩
    have := ih part member
    simp
    omega

theorem Expr.Covers.weight {level : Nat} {e : Expr} (covers : Expr.Covers level tokens e) :
    Lu.weight (tokens.map Token.kind) = e.bare.weight :=
  covers.derives.weight

/-- Two expressions that cover shorter tokens are the same if they are so up to their places. -/
def UniqueBelow (length : Nat) : Prop :=
  ∀ {tokens level level' e e'}, tokens.length < length → Expr.Covers level tokens e →
    Expr.Covers level' tokens e' → e.bare = e'.bare → e = e'

/-- The operands on both sides of a mark. -/
theorem Enclosed.operands {left right left' right' : List Token} {mark mark' : Token}
    {l r l' r' : Expr} {a b c d : Nat} (unique : UniqueBelow whole.length)
    (enclosed : Enclosed (left ++ mark :: right) whole)
    (enclosed' : Enclosed (left' ++ mark' :: right') whole)
    (noParen : Lu.weight [mark.kind] = 1) (noParen' : Lu.weight [mark'.kind] = 1)
    (onLeft : Expr.Covers a left l) (onLeft' : Expr.Covers b left' l')
    (onRight : Expr.Covers c right r) (onRight' : Expr.Covers d right' r')
    (lefts : l.bare = l'.bare) (rights : r.bare = r'.bare) : l = l' ∧ r = r' := by
  obtain ⟨rfl, rfl, rfl⟩ := enclosed.unique enclosed' noParen noParen' onLeft.derives.paired
    onLeft'.derives.paired (by rw [onLeft.weight, onLeft'.weight, lefts])
  have length := enclosed.length
  simp only [List.length_append, List.length_cons] at length
  exact ⟨unique (by omega) onLeft onLeft' lefts, unique (by omega) onRight onRight' rights⟩

theorem BinaryOp.weight_mark (op : BinaryOp) : Lu.weight [.mark op.mark] = 1 := by
  cases op <;> rfl

theorem UnaryOp.weight_mark (op : UnaryOp) : Lu.weight [.mark op.mark] = 1 := by
  cases op <;> rfl

/-- What is enclosed with the token that it begins with. -/
theorem Enclosed.unique_head {first first' : Token} {rest rest' : List Token}
    (enclosed : Enclosed (first :: rest) whole) (enclosed' : Enclosed (first' :: rest') whole)
    (noParen : Lu.weight [first.kind] = 1) (noParen' : Lu.weight [first'.kind] = 1) :
    first = first' ∧ rest = rest' :=
  (@Enclosed.unique whole [] rest [] rest' first first' enclosed enclosed' noParen noParen'
    rfl rfl rfl).2

theorem weights_of_bare {args args' : List (List Token × Expr)}
    (each : ∀ arg ∈ args, Expr.Covers 0 arg.1 arg.2)
    (each' : ∀ arg ∈ args', Expr.Covers 0 arg.1 arg.2)
    (trees : (args.map (·.2)).map Expr.bare = (args'.map (·.2)).map Expr.bare) :
    (args.map (·.1)).map (fun part => Lu.weight (part.map Token.kind)) =
      (args'.map (·.1)).map fun part => Lu.weight (part.map Token.kind) := by
  have counted {args : List (List Token × Expr)} (each : ∀ arg ∈ args, Expr.Covers 0 arg.1 arg.2) :
      (args.map (·.1)).map (fun part => Lu.weight (part.map Token.kind)) =
        ((args.map (·.2)).map Expr.bare).map Expr.weight := by
    rw [List.map_map, List.map_map, List.map_map]
    exact List.map_congr_left fun arg member => (each arg member).weight
  rw [counted each, counted each', trees]

/-- Argument by argument. -/
theorem args_unique {length : Nat} (below : UniqueBelow length) {args args' : List (List Token × Expr)}
    (shorter : ∀ arg ∈ args, arg.1.length < length) (each : ∀ arg ∈ args, Expr.Covers 0 arg.1 arg.2)
    (each' : ∀ arg ∈ args', Expr.Covers 0 arg.1 arg.2) (lists : args.map (·.1) = args'.map (·.1))
    (trees : (args.map (·.2)).map Expr.bare = (args'.map (·.2)).map Expr.bare) :
    args.map (·.2) = args'.map (·.2) := by
  induction args generalizing args' with
  | nil => rw [List.map_eq_nil_iff.mp lists.symm]
  | cons arg rest ih =>
    obtain ⟨arg', rest', rfl, list, lists⟩ := List.map_eq_cons_iff.mp lists.symm
    obtain ⟨less, shorter⟩ := List.forall_mem_cons.mp shorter
    obtain ⟨covers, each⟩ := List.forall_mem_cons.mp each
    obtain ⟨covers', each'⟩ := List.forall_mem_cons.mp each'
    obtain ⟨tree, trees⟩ := List.cons.inj trees
    rw [list] at covers'
    rw [List.map_cons, List.map_cons, below less covers covers' tree,
      ih shorter each each' lists.symm trees]

theorem Expr.Core.unique {core core' : Expr} (below : UniqueBelow whole.length)
    (isCore : Expr.Core inner core) (isCore' : Expr.Core inner' core')
    (enclosed : Enclosed inner whole) (enclosed' : Enclosed inner' whole)
    (same : core.bare = core'.bare) : core.setSpan (extent whole) = core'.setSpan (extent whole) := by
  cases isCore with
  | assign shape target isMark value =>
    cases isCore' with
    | assign shape' target' isMark' value' =>
      subst shape shape'
      simp only [Expr.bare, Expr.assign.injEq] at same
      obtain ⟨rfl, rfl⟩ := enclosed.operands below enclosed' (by rw [isMark]; rfl) (by rw [isMark']; rfl)
        target target' value value' same.2.1 same.2.2
      rfl
    | _ => cases same
  | binary shape left isMark right =>
    cases isCore' with
    | binary shape' left' isMark' right' =>
      subst shape shape'
      simp only [Expr.bare, Expr.binary.injEq] at same
      obtain ⟨-, rfl, lefts, rights⟩ := same
      obtain ⟨rfl, rfl⟩ := enclosed.operands below enclosed' (by rw [isMark, BinaryOp.weight_mark])
        (by rw [isMark', BinaryOp.weight_mark]) left left' right right' lefts rights
      rfl
    | _ => cases same
  | unary shape isMark operand =>
    cases isCore' with
    | unary shape' isMark' operand' =>
      subst shape shape'
      simp only [Expr.bare, Expr.unary.injEq] at same
      obtain ⟨-, rfl, operands⟩ := same
      obtain ⟨rfl, rfl⟩ := enclosed.unique_head enclosed' (by rw [isMark, UnaryOp.weight_mark])
        (by rw [isMark', UnaryOp.weight_mark])
      obtain rfl := below enclosed.length operand operand' operands
      rfl
    | _ => cases same
  | literal shape literal =>
    cases isCore' with
    | literal shape' literal' =>
      cases same
      rfl
    | _ => cases same
  | name shape isName =>
    cases isCore' with
    | name shape' isName' =>
      cases same
      rfl
    | _ => cases same
  | @call inner name token opening closing args shape isName each separates =>
    cases isCore' with
    | @call inner' name' token' opening' closing' args' shape' isName' each' separates' =>
      subst shape shape'
      simp only [Expr.bare, Expr.call.injEq, Expr.bareAll_eq_map] at same
      obtain ⟨-, rfl, -, trees, -⟩ := same
      have length := enclosed.length
      simp only [List.length_append, List.length_cons] at length
      obtain ⟨rfl, rest⟩ := enclosed.unique_head enclosed' (by rw [isName]; rfl) (by rw [isName']; rfl)
      obtain ⟨-, inners⟩ := List.cons.inj rest
      obtain ⟨rfl, -⟩ := List.append_inj' inners rfl
      have lists := separates.unique separates' (weights_of_bare each each' trees)
      have shorter (arg) (member : arg ∈ args) : arg.1.length < whole.length := by
        have := separates.length _ (List.mem_map_of_mem member)
        omega
      rw [args_unique below shorter each each' lists trees]
      rfl
    | _ => cases same

/-- The tokens and the tree without its places determine the tree with them. -/
theorem Expr.Covers.unique {level level' : Nat} {e e' : Expr} (covers : Expr.Covers level tokens e)
    (covers' : Expr.Covers level' tokens e') (same : e.bare = e'.bare) : e = e' := by
  -- By length, as a core in parentheses says nothing about what covers the tokens around it.
  have all : ∀ length, UniqueBelow length := by
    intro length
    induction length with
    | zero => exact fun shorter => (Nat.not_lt_zero _ shorter).elim
    | succ length ih =>
      intro tokens level level' e e' shorter covers covers' same
      obtain ⟨inner, core, isCore, enclosed, rfl⟩ := covers.core
      obtain ⟨inner', core', isCore', enclosed', rfl⟩ := covers'.core
      rw [bare_setSpan, bare_setSpan] at same
      have below : UniqueBelow tokens.length := fun less => ih (by omega)
      exact isCore.unique below isCore' enclosed enclosed' same
  exact all _ (Nat.lt_succ_self _) covers covers' same

end Cores

end Lu
