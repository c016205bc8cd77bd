import Lu.Proofs.Parse.Advancing
import Lu.Proofs.Parse.Derivable

namespace Lu

/-!
The parsers of expressions read what covers the tree they return, and fail only where no expression goes
on.
-/

namespace Expr.Covers

variable {left right : List Token} {l r : Expr} {mark : Token}

theorem ofAssign (ordered : Ordered (left ++ mark :: right)) (covers : Expr.Covers 1 left l)
    (isMark : mark.kind = .mark .assign) (also : Expr.Covers 0 right r) :
    Expr.Covers 0 (left ++ mark :: right) (Expr.ofAssign l r) := by
  have span := @Ordered.merge left [mark] right ordered covers.ne_nil also.ne_nil
  rw [Expr.ofAssign, covers.span, also.span, span]
  exact .assign rfl covers isMark also

theorem ofBinary {op : BinaryOp} {level : Nat} (ordered : Ordered (left ++ mark :: right))
    (same : op.level = level) (low : level < 7) (covers : Expr.Covers level left l)
    (isMark : mark.kind = .mark op.mark) (also : Expr.Covers (level + 1) right r) :
    Expr.Covers level (left ++ mark :: right) (Expr.ofBinary op l r) := by
  have span := @Ordered.merge left [mark] right ordered covers.ne_nil also.ne_nil
  rw [Expr.ofBinary, covers.span, also.span, span]
  exact .binary rfl same low covers isMark also

theorem ofPower (ordered : Ordered (left ++ mark :: right)) (covers : Expr.Covers 8 left l)
    (isMark : mark.kind = .mark .caret) (also : Expr.Covers 7 right r) :
    Expr.Covers 7 (left ++ mark :: right) (Expr.ofBinary .pow l r) := by
  have span := @Ordered.merge left [mark] right ordered covers.ne_nil also.ne_nil
  rw [Expr.ofBinary, covers.span, also.span, span]
  exact .power rfl covers isMark also

theorem ofCall {name : String} {token opening closing : Token} {inner : List Token}
    {args : List (List Token × Expr)} (ordered : Ordered (token :: opening :: (inner ++ [closing])))
    (isName : token.kind = .ident name) (isOpening : opening.kind = .mark .leftParen)
    (each : ∀ arg ∈ args, Expr.Covers 0 arg.1 arg.2) (separates : Separated (args.map (·.1)) inner)
    (isClosing : closing.kind = .mark .rightParen) :
    Expr.Covers 9 (token :: opening :: (inner ++ [closing]))
      (.call ⟨token.span.merge closing.span, .unset⟩ name token.span (args.map (·.2)) .unset) := by
  have span := @Ordered.merge [token] (opening :: inner) [closing] ordered (by simp) (by simp)
  rw [extent_singleton, extent_singleton] at span
  rw [span]
  exact .call rfl isName isOpening each separates isClosing

end Expr.Covers

namespace Parser

/-- How the parsers of expressions advance with the given fuel. -/
structure ExprsAdvanceAt (fuel : Nat) : Prop where
  expression {state} : state.cursor.Ready →
    Advances (expression fuel) state (fun read e _ => Expr.Covers 0 read e) (Expr.Derivable 0)
  operators {state index} : state.cursor.Ready → index ≤ 6 →
    Advances (operators fuel (binaryLevels.drop index)) state
      (fun read e _ => Expr.Covers (index + 1) read e) (Expr.Derivable (index + 1))
  operatorTail {state index level left} : state.cursor.Ready → binaryLevels[index]? = some level →
    Advances (operatorTail fuel level (binaryLevels.drop (index + 1)) left) state
      (fun read e _ => ∀ before, Ordered (before ++ read) → Expr.Covers (index + 1) before left →
        Expr.Covers (index + 1) (before ++ read) e)
      fun tokens => ∀ before, Expr.Derivable (index + 1) before →
        Expr.Derivable (index + 1) (before ++ tokens)
  power {state} : state.cursor.Ready →
    Advances (power fuel) state (fun read e _ => Expr.Covers 7 read e) (Expr.Derivable 7)
  unary {state} : state.cursor.Ready →
    Advances (unary fuel) state (fun read e _ => Expr.Covers 8 read e) (Expr.Derivable 8)
  primary {state} : state.cursor.Ready →
    Advances (primary fuel) state (fun read e _ => Expr.Covers 9 read e) (Expr.Derivable 9)
  nameOrCall {state} : state.cursor.Ready →
    Advances (nameOrCall fuel) state (fun read e _ => Expr.Covers 9 read e) (Expr.Derivable 9)
  arguments {state before} : state.cursor.Ready →
    Advances (arguments fuel before) state
      (fun read args _ => ∃ parts : List (List Token × Expr), parts ≠ [] ∧
        (∀ part ∈ parts, Expr.Covers 0 part.1 part.2) ∧ Separated (parts.map (·.1)) read ∧
        args = before.reverse ++ parts.map (·.2))
      fun tokens => ∃ parts : List (List TokenKind × Expr), parts ≠ [] ∧
        (∀ part ∈ parts, Expr.Derives 0 part.1 part.2) ∧ tokens = separated (parts.map (·.1))

section Exprs

variable {fuel : Nat} {state : ParseState}

theorem ExprsAdvanceAt.expression_succ (ih : ExprsAdvanceAt fuel) (ready : state.cursor.Ready) :
    Advances (Parser.expression (fuel + 1)) state (fun read e _ => Expr.Covers 0 read e)
      (Expr.Derivable 0) := by
  unfold Parser.expression
  refine .reading ?_
  refine (ih.operators ready (Nat.zero_le 6)).bind_whole (fun _ => .tighter (by decide))
    fun left target after atMark covers => ?_
  refine .bind_eat trivial atMark (fun mark after behind isMark => ?_) ?_
  · refine (ih.expression behind).returning (fun tokens derivable => ?_)
      fun right value last also reached => ?_
    · obtain ⟨e, derives⟩ := derivable
      exact ⟨_, .assign covers.derives derives⟩
    exact .ofAssign (reached.read_ordered ready) covers isMark also
  · refine .pure atMark fun _ => ?_
    rw [List.append_nil]
    exact .tighter (by decide) covers

theorem ExprsAdvanceAt.operators_succ (ih : ExprsAdvanceAt fuel) {index : Nat}
    (ready : state.cursor.Ready) (low : index ≤ 6) :
    Advances (Parser.operators (fuel + 1) (binaryLevels.drop index)) state
      (fun read e _ => Expr.Covers (index + 1) read e) (Expr.Derivable (index + 1)) := by
  cases atLevel : binaryLevels[index]? with
  | none =>
    -- Below the last level of left-associative operators comes the power.
    obtain rfl : index = 6 := Nat.le_antisymm low (List.getElem?_eq_none_iff.mp atLevel)
    unfold Parser.operators
    exact ih.power ready
  | some level =>
    obtain ⟨bound, rfl⟩ := List.getElem?_eq_some_iff.mp atLevel
    have bound' : index < 6 := bound
    rw [List.drop_eq_getElem_cons bound]
    unfold Parser.operators
    refine .reading ?_
    refine (ih.operators ready bound').bind_whole (fun _ => .tighter (by omega))
      fun front left after behind covers => ?_
    refine (ih.operatorTail behind atLevel).mono
      (fun tokens continues => continues _ ⟨_, .tighter (by omega) covers.derives⟩)
      fun more e last extends' reached => ?_
    exact extends' front (reached.read_ordered ready) (.tighter (by omega) covers)

theorem ExprsAdvanceAt.operatorTail_succ (ih : ExprsAdvanceAt fuel) {index : Nat}
    {level : List (Mark × BinaryOp)} {left : Expr} (ready : state.cursor.Ready)
    (atLevel : binaryLevels[index]? = some level) :
    Advances (Parser.operatorTail (fuel + 1) level (binaryLevels.drop (index + 1)) left) state
      (fun read e _ => ∀ before, Ordered (before ++ read) → Expr.Covers (index + 1) before left →
        Expr.Covers (index + 1) (before ++ read) e)
      fun tokens => ∀ before, Expr.Derivable (index + 1) before →
        Expr.Derivable (index + 1) (before ++ tokens) := by
  have low : index + 1 ≤ 6 := (List.getElem?_eq_some_iff.mp atLevel).1
  unfold Parser.operatorTail
  refine .bind_cursor (fun other same => by simp only [Cursor.currentKind_congr same]) ?_
  split
  · refine .pure ready fun before _ covers => ?_
    rwa [List.append_nil]
  · rename_i op found
    obtain ⟨current, atOp⟩ := (operatorIn?_eq_some atLevel).mp found
    refine .bind_advance ready (by simp [current]) fun after atRight => ?_
    simp only [current]
    refine (ih.operators atRight low).bind_whole
      (fun tokens ⟨r, derives⟩ before ⟨l, first⟩ => ⟨_, .binary atOp (by omega) first derives⟩)
      fun right r after behind covers => ?_
    -- The chain so far and the new operand are the first operand of what follows.
    refine (ih.operatorTail behind atLevel).mono (fun tokens continues before ⟨l, first⟩ => ?_)
      fun more e last extends' before ordered first => ?_
    · have whole := continues _ ⟨_, .binary atOp (by omega) first covers.derives⟩
      simpa using whole
    · have whole : before ++ state.cursor.current :: (right ++ more) =
          (before ++ state.cursor.current :: right) ++ more := by simp
      rw [whole] at ordered ⊢
      exact extends' _ ordered (.ofBinary ordered.left atOp (by omega) first current covers)

theorem ExprsAdvanceAt.power_succ (ih : ExprsAdvanceAt fuel) (ready : state.cursor.Ready) :
    Advances (Parser.power (fuel + 1)) state (fun read e _ => Expr.Covers 7 read e)
      (Expr.Derivable 7) := by
  unfold Parser.power
  refine .reading ?_
  refine (ih.unary ready).bind_whole (fun _ => .tighter (by decide))
    fun left base after atMark covers => ?_
  refine .bind_eat trivial atMark (fun mark after behind isMark => ?_) ?_
  · refine (ih.power behind).returning (fun tokens derivable => ?_)
      fun right exponent last also reached => ?_
    · obtain ⟨e, derives⟩ := derivable
      exact ⟨_, .power covers.derives derives⟩
    exact .ofPower (reached.read_ordered ready) covers isMark also
  · refine .pure atMark fun _ => ?_
    rw [List.append_nil]
    exact .tighter (by decide) covers

theorem ExprsAdvanceAt.unary_succ (ih : ExprsAdvanceAt fuel) (ready : state.cursor.Ready) :
    Advances (Parser.unary (fuel + 1)) state (fun read e _ => Expr.Covers 8 read e)
      (Expr.Derivable 8) := by
  unfold Parser.unary
  refine .bind_cursor (fun other same => by simp only [Cursor.currentSpan_congr same])
    (.bind_cursor (fun other same => by simp only [Cursor.currentKind_congr same]) ?_)
  split
  · rename_i op found
    have current := prefixOp?_eq_some.mp found
    refine .reading (.bind_advance ready (by simp [current]) fun after behind => ?_)
    simp only [current]
    refine (ih.unary behind).returning (fun tokens ⟨e, derives⟩ => ⟨_, .unary derives⟩)
      fun tokens operand last covers reached => ?_
    have ordered := reached.read_ordered ready
    have span := @Ordered.merge [state.cursor.current] [] tokens ordered (by simp) covers.ne_nil
    rw [covers.span, Cursor.currentSpan, ← extent_singleton, span]
    exact .unary current covers
  · exact (ih.primary ready).mono (fun _ derivable => derivable.tighter (by decide))
      fun _ _ _ covers => .tighter (by decide) covers

theorem ExprsAdvanceAt.primary_succ (ih : ExprsAdvanceAt fuel) (ready : state.cursor.Ready) :
    Advances (Parser.primary (fuel + 1)) state (fun read e _ => Expr.Covers 9 read e)
      (Expr.Derivable 9) := by
  unfold Parser.primary
  refine .bind_cursor (fun other same => by simp only [same]) ?_
  dsimp only
  split
  · rename_i value found
    have literal := literalValue?_eq_some.mp found
    have inner : state.cursor.current.kind ≠ .eof := fun same => by
      rw [same] at literal
      cases literal
    exact .bind_advance ready inner fun after behind => .pure behind (.literal literal)
  · split
    · exact ih.nameOrCall ready
    · rename_i current
      refine .reading (.bind_advance ready (fun same => by cases current.symm.trans same)
          fun after inside => ?_)
      simp only [show state.cursor.currentKind = .mark .leftParen from current]
      refine (ih.expression inside).bind (fun tokens derivable => ?_)
        fun tokens e after atClosing covers => ?_
      · obtain ⟨e, derives⟩ := derivable
        exact ⟨_, _, .parens derives⟩
      refine .bind_expect trivial atClosing ⟨[], _, .parens covers.derives⟩
        fun closing last behind isClosing => .pure behind fun reached => ?_
      have ordered := reached.read_ordered ready
      have span := @Ordered.merge [state.cursor.current] tokens [closing] ordered (by simp) (by simp)
      rw [← extent_singleton, ← @extent_singleton closing, span]
      exact .parens rfl current covers isClosing
    · exact .fail ready (by simp) ⟨_, Expr.derivable_nil (Nat.le_refl 9)⟩

theorem ExprsAdvanceAt.nameOrCall_succ (ih : ExprsAdvanceAt fuel) (ready : state.cursor.Ready) :
    Advances (Parser.nameOrCall (fuel + 1)) state (fun read e _ => Expr.Covers 9 read e)
      (Expr.Derivable 9) := by
  unfold Parser.nameOrCall
  refine .reading (.bind_ident ready ⟨[], _, .name⟩ fun name token after behind isName => ?_)
  refine .bind_eat trivial behind (fun opening after inside isOpening => ?_) ?_
  · refine .bind_cursor (fun other same => by simp only [Cursor.check_congr same]) ?_
    split
    · have none : ∀ arg ∈ ([] : List (List TokenKind × Expr)), Expr.Derives 0 arg.1 arg.2 :=
        fun _ member => (List.not_mem_nil member).elim
      refine .bind_pure (.bind_expect trivial inside ⟨[], _, .call none⟩
        fun closing last behind isClosing => .pure behind fun reached => ?_)
      exact @Expr.Covers.ofCall name _ _ _ [] [] (reached.read_ordered ready) isName isOpening
        (fun _ member => (List.not_mem_nil member).elim) .nil isClosing
    · refine (ih.arguments inside).bind (fun tokens derivable => ?_)
        fun tokens args after atClosing covered => ?_
      · obtain ⟨parts, -, derive, rfl⟩ := derivable
        exact ⟨[.mark .rightParen], _, .call derive⟩
      obtain ⟨parts, -, cover, separates, same⟩ := covered
      obtain rfl : args = parts.map (·.2) := same
      refine .bind_expect trivial atClosing ⟨[], ?_⟩
        fun closing last behind isClosing => .pure behind fun reached => ?_
      · have isClosing : Token.kind ⟨.mark .rightParen, Span.nowhere⟩ = .mark .rightParen := rfl
        have call := Expr.Covers.call rfl isName isOpening cover separates isClosing
        exact ⟨_, by simpa [isName, isOpening] using call.derives⟩
      · exact .ofCall (reached.read_ordered ready) isName isOpening cover separates isClosing
  · exact .pure behind fun _ => .name isName

theorem ExprsAdvanceAt.arguments_succ (ih : ExprsAdvanceAt fuel) {before : List Expr}
    (ready : state.cursor.Ready) :
    Advances (Parser.arguments (fuel + 1) before) state
      (fun read args _ => ∃ parts : List (List Token × Expr), parts ≠ [] ∧
        (∀ part ∈ parts, Expr.Covers 0 part.1 part.2) ∧ Separated (parts.map (·.1)) read ∧
        args = before.reverse ++ parts.map (·.2))
      fun tokens => ∃ parts : List (List TokenKind × Expr), parts ≠ [] ∧
        (∀ part ∈ parts, Expr.Derives 0 part.1 part.2) ∧ tokens = separated (parts.map (·.1)) := by
  unfold Parser.arguments
  refine (ih.expression ready).bind_whole (fun tokens derivable => ?_)
    fun tokens arg after behind covers => ?_
  · obtain ⟨e, derives⟩ := derivable
    exact ⟨[(tokens, e)], List.cons_ne_nil _ _, by simpa using derives, rfl⟩
  refine .bind_eat trivial behind (fun comma after inside isComma => ?_) ?_
  · refine (ih.arguments inside).mono (fun more derivable => ?_) fun more args last covered => ?_
    · obtain ⟨parts, nonempty, derive, same⟩ := derivable
      refine ⟨(tokens.map Token.kind, arg.bare) :: parts, List.cons_ne_nil _ _,
        List.forall_mem_cons.mpr ⟨covers.derives, derive⟩, ?_⟩
      obtain ⟨part, parts, rfl⟩ := List.exists_cons_of_ne_nil nonempty
      rw [same]
      rfl
    · obtain ⟨parts, nonempty, cover, separates, same⟩ := covered
      refine ⟨(tokens, arg) :: parts, List.cons_ne_nil _ _, List.forall_mem_cons.mpr ⟨covers, cover⟩,
        .more isComma (by simpa using nonempty) separates, by simp [same]⟩
  · refine .pure behind ⟨[(tokens, arg)], List.cons_ne_nil _ _, by simpa using covers, ?_, by simp⟩
    rw [List.append_nil]
    exact .one

theorem exprsAdvanceAt : ∀ fuel, ExprsAdvanceAt fuel
  | 0 => by
    constructor <;> intros <;> exact Advances.outOfFuel
  | fuel + 1 => by
    have ih := exprsAdvanceAt fuel
    exact ⟨ih.expression_succ, ih.operators_succ, ih.operatorTail_succ, ih.power_succ, ih.unary_succ,
      ih.primary_succ, ih.nameOrCall_succ, ih.arguments_succ⟩

end Exprs

end Parser

end Lu
