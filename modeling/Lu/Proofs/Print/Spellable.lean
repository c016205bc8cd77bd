import Lu.Proofs.Print.Tokens

namespace Lu

/-!
The tokens of a tree that can be printed can all be spelled.
-/

def AllSpellable (tokens : List TokenKind) : Prop := ∀ kind ∈ tokens, kind.Spellable

namespace AllSpellable

variable {tokens rest : List TokenKind}

theorem nil : AllSpellable [] := nofun

theorem cons {kind : TokenKind} (spellable : kind.Spellable) (others : AllSpellable rest) :
    AllSpellable (kind :: rest) := List.forall_mem_cons.mpr ⟨spellable, others⟩

theorem append (front : AllSpellable tokens) (back : AllSpellable rest) :
    AllSpellable (tokens ++ rest) := List.forall_mem_append.mpr ⟨front, back⟩

theorem mark {m : Mark} (others : AllSpellable rest) : AllSpellable (.mark m :: rest) :=
  cons trivial others

theorem keyword {k : Keyword} (others : AllSpellable rest) : AllSpellable (.keyword k :: rest) :=
  cons trivial others

theorem name {name : String} (isName : IsName name) (others : AllSpellable rest) :
    AllSpellable (.ident name :: rest) := cons isName others

theorem closed {m : Mark} (spellable : AllSpellable tokens) : AllSpellable (tokens ++ [.mark m]) :=
  spellable.append (.mark .nil)

theorem atLevel {own asked : Nat} (spellable : AllSpellable tokens) :
    AllSpellable (Lu.atLevel own asked tokens) := by
  unfold Lu.atLevel
  split
  · exact .closed (.mark spellable)
  · exact spellable

theorem separated : ∀ {parts : List (List TokenKind)},
    (∀ part ∈ parts, AllSpellable part) → AllSpellable (Lu.separated parts)
  | [], _ => .nil
  | [_], all => (List.forall_mem_cons.mp all).1
  | _ :: next :: rest, all => by
    obtain ⟨here, later⟩ := List.forall_mem_cons.mp all
    exact here.append (.mark (separated later))

theorem typeTokens {typeName : Option TypeName}
    (printable : ∀ name ∈ typeName, TypeName.Printable name) :
    AllSpellable (Lu.typeTokens (typeName.map TypeName.name)) := by
  cases typeName with
  | none => exact .nil
  | some typeName => exact .mark (.name (printable typeName rfl) .nil)

end AllSpellable

theorem Value.Printable.spellable {value : Value} (printable : value.Printable) :
    value.token.Spellable := by
  cases value with
  | int | str | nil => exact printable
  | float | void => exact printable.elim

mutual

theorem Expr.tokens_spellable : ∀ e : Expr, e.Printable → ∀ {level : Nat},
    AllSpellable (e.tokens level)
  | .literal .., printable, _ => .cons (Value.Printable.spellable printable) .nil
  | .variable .., isName, _ => .name isName .nil
  | .assign _ target value, ⟨targetPrintable, valuePrintable⟩, _ =>
    .atLevel ((target.tokens_spellable targetPrintable).append
      (.mark (value.tokens_spellable valuePrintable)))
  | .binary _ _ left right, ⟨leftPrintable, rightPrintable⟩, _ =>
    .atLevel ((left.tokens_spellable leftPrintable).append
      (.mark (right.tokens_spellable rightPrintable)))
  | .unary _ _ operand, printable, _ => .atLevel (.mark (operand.tokens_spellable printable))
  | .call _ _ _ args _, ⟨isName, printable⟩, _ =>
    .closed (.name isName (.mark (.separated (Expr.allTokens_spellable args printable))))

theorem Expr.allTokens_spellable : ∀ args : List Expr, Expr.Printable.allPrintable args →
    ∀ part ∈ Expr.tokens.allTokens args, AllSpellable part
  | [], _ => nofun
  | e :: rest, ⟨printable, restPrintable⟩ => List.forall_mem_cons.mpr
    ⟨e.tokens_spellable printable, Expr.allTokens_spellable rest restPrintable⟩

end

theorem VarDecl.tokens_spellable {decl : VarDecl} (printable : decl.Printable) :
    AllSpellable decl.tokens :=
  .append (.name printable.name (.typeTokens printable.typeName))
    (.mark (decl.init.tokens_spellable printable.init))

theorem ForInit.tokens_spellable {init : ForInit} (printable : init.Printable) :
    AllSpellable init.tokens := by
  cases init with
  | letVar decl => exact .keyword (VarDecl.tokens_spellable printable)
  | assign e => exact e.tokens_spellable printable.2

theorem Param.tokens_spellable {param : Param} (printable : param.Printable) :
    AllSpellable param.tokens :=
  .name printable.name (.mark (.name printable.typeName .nil))

mutual

theorem Stmt.tokens_spellable : ∀ s : Stmt, s.Printable → AllSpellable s.tokens
  | .expr _ e, printable => .closed (e.tokens_spellable printable)
  | .letVar _ decl, printable => .closed (.keyword (VarDecl.tokens_spellable printable))
  | .function _ decl, printable => decl.tokens_spellable printable
  | .block _ body, printable => body.tokens_spellable printable
  | .ifElse _ condition thenBranch none, ⟨conditionPrintable, thenPrintable⟩ =>
    .append (.append (.keyword (.mark (condition.tokens_spellable conditionPrintable)))
      (.mark (thenBranch.tokens_spellable thenPrintable))) .nil
  | .ifElse _ condition thenBranch (some ⟨_, statements⟩),
      ⟨conditionPrintable, thenPrintable, elsePrintable⟩ => by
    have others := Stmt.allTokens_spellable statements elsePrintable
    refine .append (.append (.keyword (.mark (condition.tokens_spellable conditionPrintable)))
      (.mark (thenBranch.tokens_spellable thenPrintable))) (.keyword ?_)
    split
    · exact others
    · exact .closed (.mark others)
  | .whileLoop _ condition body, ⟨conditionPrintable, bodyPrintable⟩ =>
    .append (.keyword (.mark (condition.tokens_spellable conditionPrintable)))
      (.mark (body.tokens_spellable bodyPrintable))
  | .forLoop _ init condition step body,
      ⟨initPrintable, conditionPrintable, stepPrintable, bodyPrintable⟩ =>
    .append (.append (.append (.keyword (.mark (ForInit.tokens_spellable initPrintable)))
      (.mark (condition.tokens_spellable conditionPrintable)))
      (.mark (step.tokens_spellable stepPrintable))) (.mark (body.tokens_spellable bodyPrintable))
  | .breakLoop _, _ | .continueLoop _, _ | .returnValue _ none, _ => .keyword (.mark .nil)
  | .returnValue _ (some value), printable => .closed (.keyword (value.tokens_spellable printable))

theorem Stmt.allTokens_spellable : ∀ statements : List Stmt, Stmt.AllPrintable statements →
    AllSpellable (Stmt.allTokens statements)
  | [], _ => .nil
  | s :: rest, ⟨printable, restPrintable⟩ =>
    (s.tokens_spellable printable).append (Stmt.allTokens_spellable rest restPrintable)

theorem Block.tokens_spellable : ∀ body : Block, body.Printable → AllSpellable body.tokens
  | ⟨_, statements⟩, printable => .closed (.mark (Stmt.allTokens_spellable statements printable))

theorem FunctionDecl.tokens_spellable : ∀ decl : FunctionDecl, decl.Printable →
    AllSpellable decl.tokens
  | ⟨_, _, _, _, _, body, _, _⟩, ⟨isName, paramsPrintable, resultPrintable, bodyPrintable⟩ =>
    .append (.append (.keyword (.name isName (.mark (.separated
      (List.forall_mem_map.mpr fun param member =>
        Param.tokens_spellable (paramsPrintable param member))))))
      (.mark (.typeTokens resultPrintable))) (body.tokens_spellable bodyPrintable)

end

end Lu
