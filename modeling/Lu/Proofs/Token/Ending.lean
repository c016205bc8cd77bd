import Lu.Token.Lexer

namespace Lu

/-!
The lexer puts the end of file behind all other tokens, and nowhere else.
-/

/-- The tokens end in their only end of file. -/
def EndsInEof (tokens : List TokenKind) : Prop := ∃ body, tokens = body ++ [.eof] ∧ .eof ∉ body

theorem EndsInEof.tail {kind : TokenKind} {rest : List TokenKind} (ends : EndsInEof (kind :: rest))
    (other : kind ≠ .eof) : EndsInEof rest := by
  obtain ⟨body, shape, none⟩ := ends
  cases body with
  | nil =>
    cases shape
    exact (other rfl).elim
  | cons first body =>
    cases shape
    exact ⟨body, rfl, fun member => none (List.mem_cons_of_mem _ member)⟩

theorem EndsInEof.eq_cons {tokens : List TokenKind} (ends : EndsInEof tokens) :
    ∃ kind rest, tokens = kind :: rest := by
  obtain ⟨_ | ⟨first, body⟩, rfl, -⟩ := ends
  · exact ⟨_, _, rfl⟩
  · exact ⟨_, _, rfl⟩

/-- Behind the end of file there is nothing. -/
theorem EndsInEof.of_eof {rest : List TokenKind} (ends : EndsInEof (.eof :: rest)) : rest = [] := by
  obtain ⟨_ | ⟨first, body⟩, shape, none⟩ := ends
  · cases shape
    rfl
  · cases shape
    exact (none (List.mem_cons_self ..)).elim

/-- The piece is not the end of file. -/
def Lexeme.IsInner (lexeme : Lexeme) : Prop := lexeme ≠ .token .eof

theorem intPiece_inner (base : Nat) (digits text rest : List Char) :
    (intPiece base digits text rest).lexeme.IsInner := by
  unfold intPiece
  split <;> nofun

theorem decimalPiece_inner (whole rest : List Char) :
    (decimalPiece whole rest).lexeme.IsInner := by
  unfold decimalPiece
  split
  · split
    · dsimp only
      split <;> nofun
    · exact intPiece_inner _ _ _ _
  · split
    · nofun
    · exact intPiece_inner _ _ _ _

theorem numberPiece_inner (first : Char) (chars : List Char) :
    (numberPiece first chars).lexeme.IsInner := by
  unfold numberPiece
  split
  · rename_i found
    unfold basedPiece? at found
    repeat' split at found
    all_goals cases found
    exact intPiece_inner _ _ _ _
  · exact decimalPiece_inner _ _

theorem wordPiece_inner (first : Char) (chars : List Char) :
    (wordPiece first chars).lexeme.IsInner := by
  unfold wordPiece
  dsimp only
  split <;> nofun

theorem stringPiece_inner (chars : List Char) : (stringPiece chars).lexeme.IsInner := by
  unfold stringPiece
  split
  · dsimp only
    split <;> nofun
  · nofun

theorem simplePiece_inner (first : Char) (chars : List Char) :
    (simplePiece first chars).lexeme.IsInner := by
  unfold simplePiece
  split <;> nofun

theorem markPiece_inner (first : Char) (chars : List Char) :
    (markPiece first chars).lexeme.IsInner := by
  unfold markPiece
  split
  · split
    · nofun
    · exact simplePiece_inner _ _
  · exact simplePiece_inner _ _

theorem slashPiece_inner (chars : List Char) : (slashPiece chars).lexeme.IsInner := by
  unfold slashPiece
  split
  · nofun
  · split <;> nofun
  · exact markPiece_inner _ _

theorem firstPiece_inner (first : Char) (chars : List Char) :
    (firstPiece first chars).lexeme.IsInner := by
  unfold firstPiece
  split
  · nofun
  split
  · exact numberPiece_inner _ _
  split
  · exact wordPiece_inner _ _
  split
  · exact stringPiece_inner _
  split
  · exact slashPiece_inner _
  · exact markPiece_inner _ _

theorem lexFrom_ends {offset : Nat} {tokens result : Array Token} {chars : List Char}
    (none : ∀ token ∈ tokens, token.kind ≠ .eof) (run : lexFrom offset tokens chars = .ok result) :
    EndsInEof (result.toList.map Token.kind) := by
  fun_induction lexFrom offset tokens chars with
  | case1 offset tokens =>
    cases run
    refine ⟨tokens.toList.map Token.kind, by simp, fun member => ?_⟩
    obtain ⟨token, member, same⟩ := List.mem_map.mp member
    exact none token (Array.mem_toList_iff.mp member) same
  | case2 offset tokens first more piece next gap ih => exact ih none run
  | case3 offset tokens first more piece next span kind found ih =>
    refine ih (fun token member => ?_) run
    rcases Array.mem_push.mp member with member | rfl
    · exact none token member
    · exact fun same => firstPiece_inner first more (found.trans (congrArg _ same))
  | case4 => cases run

/-- The tokens of a source text end in their only end of file. -/
theorem lex_ends {source : String} {tokens : List Token} (run : lex source = .ok tokens) :
    EndsInEof (tokens.map Token.kind) := by
  unfold lex at run
  cases found : lexFrom 0 #[] source.toList with
  | ok result =>
    rw [found] at run
    cases run
    exact lexFrom_ends (by simp) found
  | error e =>
    rw [found] at run
    cases run

end Lu
