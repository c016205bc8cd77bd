import Lu.Proofs.Parse.Completeness

namespace Lu

/-!
The parser against the grammar: it reads just what the grammar derives, as the one tree that there
is.
-/

/-- On tokens that end in their only end of file the parser has an answer. It reads a program just if
the program derives from the tokens, and at most one does. -/
theorem parser_reads_what_derives {tokens : List Token} (ends : EndsInEof (tokens.map Token.kind)) :
    (∃ result, parse? tokens = some result) ∧
      (∀ tree : Program, (∃ program, parse? tokens = some (.ok program) ∧ program.bare = tree) ↔
        tree.Derives (tokens.map Token.kind)) ∧
      ∀ tree other : Program, tree.Derives (tokens.map Token.kind) →
        other.Derives (tokens.map Token.kind) → tree = other := by
  obtain ⟨result, run, reads⟩ := parse?_reads ends
  refine ⟨⟨result, run⟩, fun tree => ⟨?_, fun derives => ?_⟩, fun tree other derives also => ?_⟩
  · rintro ⟨program, parsed, rfl⟩
    exact (reads program (Option.some.inj (run.symm.trans parsed))).1
  · obtain ⟨program, rfl, same⟩ := parse?_accepts derives run
    exact ⟨program, run, same⟩
  · obtain ⟨program, rfl, rfl⟩ := parse?_accepts derives run
    obtain ⟨program', again, rfl⟩ := parse?_accepts also run
    cases again
    rfl

/-- The tokens of `x = y - 1 - z;`. -/
def differenceTokens : List Token :=
  [.ident "x", .mark .assign, .ident "y", .mark .minus, .int 1, .mark .minus, .ident "z",
    .mark .semicolon, .eof].map (⟨·, Span.nowhere⟩)

def differenceTree : Program :=
  let note : ExprNote := ⟨Span.nowhere, .unset⟩
  ⟨[.expr Span.nowhere (.assign note (.variable note "x" .unset)
    (.binary note .sub
      (.binary note .sub (.variable note "y" .unset) (.literal note (.int 1)))
      (.variable note "z" .unset)))], Span.nowhere⟩

/-- Subtraction associates to the left, and assignment binds looser. -/
theorem difference_is_read : EndsInEof (differenceTokens.map Token.kind) ∧
    ∃ program, parse? differenceTokens = some (.ok program) ∧ program.bare = differenceTree := by
  have ends : EndsInEof (differenceTokens.map Token.kind) :=
    ⟨(differenceTokens.map Token.kind).dropLast, rfl, by simp [differenceTokens]⟩
  have target : Expr.Derives 1 [.ident "x"] _ := .loosen 8 (Nat.le_refl 9) .name
  have first : Expr.Derives 5 [.ident "y"] _ := .loosen 4 (Nat.le_refl 9) .name
  have second : Expr.Derives 6 [.int 1] _ := .loosen 3 (Nat.le_refl 9) (.literal .int)
  have third : Expr.Derives 6 [.ident "z"] _ := .loosen 3 (Nat.le_refl 9) .name
  have minus : BinaryOp.sub.level = 5 := rfl
  have inner := Expr.Derives.binary minus (by decide) first second
  have outer := Expr.Derives.binary minus (by decide) inner third
  have whole := Expr.Derives.assign target (.loosen 5 (by decide) outer)
  refine ⟨ends, ((parser_reads_what_derives ends).2.1 differenceTree).mpr ?_⟩
  exact ⟨[(_, _)], fun _ member => List.mem_singleton.mp member ▸ .expr whole, rfl, rfl⟩

end Lu
