import Lu.Proofs.Print.Spelling

namespace Lu

/-!
Texts that spell a list of tokens: the lexer reads them as just these tokens.
-/

/-- The text spells the tokens with white space around them. There need not be any between two of
them, but then the second one must not run into the first one. -/
inductive Spells : List TokenKind → List Char → Prop
  | done {gap} : (∀ c ∈ gap, isSpace c = true) → Spells [] gap
  | token {gap kind kinds text} : (∀ c ∈ gap, isSpace c = true) → kind.Spellable →
      kind.EndsBefore text → Spells kinds text →
      Spells (kind :: kinds) (gap ++ (kind.spelling ++ text))

theorem TokenKind.LeadsIn.not_space {kind : TokenKind} {text : List Char}
    (leads : kind.LeadsIn text) : ∀ c ∈ (kind.spelling ++ text).head?, isSpace c = false := by
  obtain ⟨first, more, shape, piece⟩ := leads
  rw [shape]
  rintro _ ⟨⟩
  cases space : isSpace first with
  | false => rfl
  | true =>
    rw [firstPiece, if_pos space] at piece
    cases piece

theorem lexFrom_gap {gap rest : List Char} (spaces : ∀ c ∈ gap, isSpace c = true)
    (stops : ∀ c ∈ rest.head?, isSpace c = false) (offset : Nat) (tokens : Array Token) :
    ∃ next, lexFrom offset tokens (gap ++ rest) = lexFrom next tokens rest := by
  cases gap with
  | nil => exact ⟨offset, rfl⟩
  | cons c gap =>
    obtain ⟨space, spaces⟩ := List.forall_mem_cons.mp spaces
    have dropped := (takeWhile_before spaces stops).2
    rw [List.cons_append, lexFrom, firstPiece, if_pos space]
    simp only [dropped]
    exact ⟨_, rfl⟩

theorem lexFrom_token {kind : TokenKind} {text : List Char} (leads : kind.LeadsIn text)
    (offset : Nat) (tokens : Array Token) :
    ∃ next span, lexFrom offset tokens (kind.spelling ++ text) =
      lexFrom next (tokens.push ⟨kind, span⟩) text := by
  obtain ⟨first, more, shape, piece⟩ := leads
  rw [shape, List.cons_append, lexFrom, piece]
  exact ⟨_, _, rfl⟩

theorem Spells.lexFrom {kinds : List TokenKind} {text : List Char} (spells : Spells kinds text)
    (offset : Nat) (tokens : Array Token) : ∃ result, Lu.lexFrom offset tokens text = .ok result ∧
      result.toList.map Token.kind = tokens.toList.map Token.kind ++ (kinds ++ [.eof]) := by
  induction spells generalizing offset tokens with
  | @done gap spaces =>
    have stops : ∀ c ∈ ([] : List Char).head?, isSpace c = false := nofun
    obtain ⟨next, run⟩ := lexFrom_gap spaces stops offset tokens
    rw [List.append_nil, Lu.lexFrom.eq_1] at run
    exact ⟨_, run, by simp⟩
  | token spaces spellable ends _ ih =>
    have leads := firstPiece_spelling spellable ends
    obtain ⟨start, atGap⟩ := lexFrom_gap spaces leads.not_space offset tokens
    obtain ⟨next, span, atToken⟩ := lexFrom_token leads start tokens
    obtain ⟨result, run, kinds⟩ := ih next (tokens.push ⟨_, span⟩)
    exact ⟨result, (atGap.trans atToken).trans run, by simpa using kinds⟩

/-- What spells tokens is read as these tokens. -/
theorem Spells.lex {kinds : List TokenKind} {source : String}
    (spells : Spells kinds source.toList) :
    ∃ tokens, Lu.lex source = .ok tokens ∧ tokens.map Token.kind = kinds ++ [.eof] := by
  obtain ⟨result, run, kinds⟩ := spells.lexFrom 0 #[]
  exact ⟨result.toList, by rw [Lu.lex, run]; rfl, kinds⟩

theorem Spells.space {c : Char} {kinds : List TokenKind} {text : List Char}
    (space : isSpace c = true) (spells : Spells kinds text) : Spells kinds (c :: text) := by
  cases spells with
  | done spaces => exact .done (List.forall_mem_cons.mpr ⟨space, spaces⟩)
  | @token gap _ _ _ spaces spellable ends rest =>
    exact @Spells.token (c :: gap) _ _ _ (List.forall_mem_cons.mpr ⟨space, spaces⟩) spellable ends
      rest

/-- The token in front of a text, with a space between them if the text would run into it. -/
def TokenKind.inFrontOf (kind : TokenKind) (text : List Char) : List Char :=
  kind.spelling ++ if text.head?.any kind.runsInto then ' ' :: text else text

def layOut (kinds : List TokenKind) : List Char := kinds.foldr TokenKind.inFrontOf []

/-- No token goes on behind white space. -/
theorem TokenKind.runsInto_space (kind : TokenKind) {c : Char} (space : isSpace c = true) :
    kind.runsInto c = false := by
  simp only [isSpace, Bool.or_eq_true, decide_eq_true_eq] at space
  rcases space with ((rfl | rfl) | rfl) | rfl <;> cases kind with
  | mark m => cases m <;> rfl
  | int | ident | keyword | float | str | eof => rfl

theorem layOut_spells {kinds : List TokenKind} (spellable : ∀ kind ∈ kinds, kind.Spellable) :
    Spells kinds (layOut kinds) := by
  induction kinds with
  | nil => exact .done nofun
  | cons kind rest ih =>
    obtain ⟨here, later⟩ := List.forall_mem_cons.mp spellable
    rw [layOut, List.foldr_cons, TokenKind.inFrontOf]
    split
    · refine @Spells.token [] _ _ _ nofun here ?_ (.space rfl (ih later))
      rintro _ ⟨⟩
      exact kind.runsInto_space rfl
    · rename_i apart
      refine @Spells.token [] _ _ _ nofun here (fun c first => ?_) (ih later)
      rw [Option.mem_def] at first
      simpa [first] using apart

end Lu
