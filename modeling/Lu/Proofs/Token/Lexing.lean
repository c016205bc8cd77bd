import Lu.Proofs.Token.Ending
import Lu.Proofs.Token.Places

namespace Lu

/-!
The way of the lexer through a text: what it finds at each place it comes to, and that its answer is
made of just that.
-/

/-- The lexer finds the lexeme in front of the rest, and the text is what it covers. -/
def Lexeme.Leads (lexeme : Lexeme) (text rest : List Char) : Prop :=
  ∃ first more, text = first :: more ∧ firstPiece first (more ++ rest) = ⟨lexeme, text, rest⟩

theorem Lexeme.Leads.ne_nil {lexeme : Lexeme} {text rest : List Char}
    (leads : lexeme.Leads text rest) : text ≠ [] := by
  obtain ⟨first, more, rfl, -⟩ := leads
  exact List.cons_ne_nil first more

/-- The lexer finds something at every place but the end of the text. -/
theorem exists_leads (first : Char) (chars : List Char) :
    ∃ (lexeme : Lexeme) (text rest : List Char), lexeme.Leads text rest ∧
      text ++ rest = first :: chars := by
  obtain ⟨nonempty, covers⟩ := firstPiece_splits first chars
  cases found : firstPiece first chars with
  | mk lexeme text rest =>
    rw [found] at nonempty covers
    obtain ⟨c, more, rfl⟩ := List.exists_cons_of_ne_nil nonempty
    obtain ⟨rfl, rfl⟩ := List.cons.inj covers
    exact ⟨lexeme, c :: more, rest, ⟨c, more, rfl, found⟩, rfl⟩

/-- What it finds is determined by the characters to come. -/
theorem Lexeme.Leads.unique {lexeme other : Lexeme} {text rest text' rest' : List Char}
    (leads : lexeme.Leads text rest) (leads' : other.Leads text' rest')
    (same : text ++ rest = text' ++ rest') : lexeme = other ∧ text = text' ∧ rest = rest' := by
  obtain ⟨first, more, rfl, found⟩ := leads
  obtain ⟨first', more', rfl, found'⟩ := leads'
  simp only [List.cons_append, List.cons.injEq] at same
  obtain ⟨rfl, chars⟩ := same
  rw [chars, found'] at found
  cases found
  exact ⟨rfl, rfl, rfl⟩

/-- From an offset on the characters are read as the tokens, up to where the last offset is and the
last characters are left. -/
inductive Lexes : Nat → List Char → List Token → Nat → List Char → Prop
  | here {offset rest} : Lexes offset rest [] offset rest
  | gap {offset text rest tokens stop last} : Lexeme.gap.Leads text rest →
      Lexes (offset + byteLength text) rest tokens stop last →
      Lexes offset (text ++ rest) tokens stop last
  | token {offset kind text rest tokens stop last} : (Lexeme.token kind).Leads text rest →
      Lexes (offset + byteLength text) rest tokens stop last →
      Lexes offset (text ++ rest) (⟨kind, Span.ofRange offset (offset + byteLength text)⟩ :: tokens)
        stop last

namespace Lexes

variable {offset stop : Nat} {chars last : List Char} {tokens : List Token}

theorem append {front back : List Token} {mid : Nat} {middle : List Char}
    (first : Lexes offset chars front mid middle) (later : Lexes mid middle back stop last) :
    Lexes offset chars (front ++ back) stop last := by
  induction first with
  | here => exact later
  | gap leads _ ih => exact .gap leads (ih later)
  | token leads _ ih => exact .token leads (ih later)

/-- The last offset is as far on as the characters read are long. -/
theorem split (lexes : Lexes offset chars tokens stop last) :
    ∃ body, chars = body ++ last ∧ stop = offset + byteLength body := by
  induction lexes with
  | here => exact ⟨[], rfl, rfl⟩
  | @gap _ text _ _ _ _ _ _ ih | @token _ _ text _ _ _ _ _ _ ih =>
    obtain ⟨body, rfl, rfl⟩ := ih
    refine ⟨text ++ body, (List.append_assoc ..).symm, ?_⟩
    rw [byteLength_append]
    omega

/-- None of the tokens is the end of file. -/
theorem inner (lexes : Lexes offset chars tokens stop last) :
    ∀ token ∈ tokens, token.kind ≠ .eof := by
  induction lexes with
  | here => exact nofun
  | gap _ _ ih => exact ih
  | @token _ _ _ rest _ _ _ leads _ ih =>
    obtain ⟨first, more, -, found⟩ := leads
    have inner := firstPiece_inner first (more ++ rest)
    rw [found] at inner
    exact List.forall_mem_cons.mpr ⟨fun same => inner (congrArg _ same), ih⟩

/-- A token of the list is found at its own place. -/
theorem at_token {token : Token} {front back : List Token}
    (lexes : Lexes offset chars (front ++ token :: back) stop last) :
    ∃ mid kind text rest, Lexes offset chars front mid (text ++ rest) ∧
      (Lexeme.token kind).Leads text rest ∧
      token = ⟨kind, Span.ofRange mid (mid + byteLength text)⟩ ∧
      Lexes (mid + byteLength text) rest back stop last := by
  generalize shape : front ++ token :: back = tokens at lexes
  induction lexes generalizing front with
  | here => simp at shape
  | gap leads _ ih =>
    obtain ⟨mid, kind, text, rest, before, found, same, later⟩ := ih shape
    exact ⟨mid, kind, text, rest, .gap leads before, found, same, later⟩
  | token leads later ih =>
    rcases List.append_eq_cons_iff.mp shape with ⟨rfl, tail⟩ | ⟨front, rfl, tail⟩
    · obtain ⟨rfl, rfl⟩ := List.cons.inj tail
      exact ⟨_, _, _, _, .here, leads, rfl, later⟩
    · obtain ⟨mid, kind, text, rest, before, found, same, later⟩ := ih tail.symm
      exact ⟨mid, kind, text, rest, .token leads before, found, same, later⟩

/-- The lexer goes on behind what has been read. -/
theorem lexFrom (lexes : Lexes offset chars tokens stop last) (before : Array Token) :
    Lu.lexFrom offset before chars = Lu.lexFrom stop (before ++ tokens.toArray) last := by
  induction lexes generalizing before with
  | here => simp
  | gap leads _ ih =>
    obtain ⟨first, more, rfl, found⟩ := leads
    rw [List.cons_append, Lu.lexFrom, found]
    exact ih before
  | token leads _ ih =>
    obtain ⟨first, more, rfl, found⟩ := leads
    rw [List.cons_append, Lu.lexFrom, found]
    simp only [ih]
    congr 1
    simp

end Lexes

/-- The lexer comes to the end of the text or to an error. -/
theorem exists_lexes (offset : Nat) (chars : List Char) :
    ∃ tokens stop last, Lexes offset chars tokens stop last ∧
      (last = [] ∨ ∃ kind text rest, last = text ++ rest ∧ (Lexeme.error kind).Leads text rest) := by
  cases chars with
  | nil => exact ⟨[], offset, [], .here, .inl rfl⟩
  | cons first more =>
    obtain ⟨lexeme, text, rest, leads, covers⟩ := exists_leads first more
    have shorter : rest.length < (first :: more).length := by
      have nonempty := List.length_pos_iff.mpr leads.ne_nil
      rw [← covers, List.length_append]
      omega
    rw [← covers]
    cases lexeme with
    | gap =>
      obtain ⟨tokens, stop, last, lexes, ends⟩ := exists_lexes (offset + byteLength text) rest
      exact ⟨tokens, stop, last, .gap leads lexes, ends⟩
    | token kind =>
      obtain ⟨tokens, stop, last, lexes, ends⟩ := exists_lexes (offset + byteLength text) rest
      exact ⟨_, stop, last, .token leads lexes, ends⟩
    | error kind => exact ⟨[], offset, _, .here, .inr ⟨kind, text, rest, rfl, leads⟩⟩
termination_by chars.length
decreasing_by all_goals exact shorter

theorem lexFrom_error {offset : Nat} {before : Array Token} {kind : LexErrorKind}
    {text rest : List Char} (leads : (Lexeme.error kind).Leads text rest) :
    lexFrom offset before (text ++ rest) =
      .error ⟨kind, Span.ofRange offset (offset + byteLength text)⟩ := by
  obtain ⟨first, more, rfl, found⟩ := leads
  rw [List.cons_append, lexFrom, found]

/-- The token behind all others. -/
def endToken (offset : Nat) : Token := ⟨.eof, Span.ofRange offset offset⟩

/-- The lexer succeeds just if it comes to the end of the text. -/
theorem lex_eq_ok {source : String} {tokens : List Token} : lex source = .ok tokens ↔
    ∃ read stop, Lexes 0 source.toList read stop [] ∧ tokens = read ++ [endToken stop] := by
  obtain ⟨read, stop, last, lexes, ends⟩ := exists_lexes 0 source.toList
  have run := lexes.lexFrom #[]
  constructor
  · intro lexed
    rw [lex, run] at lexed
    rcases ends with rfl | ⟨kind, text, rest, rfl, leads⟩
    · rw [lexFrom] at lexed
      cases lexed
      exact ⟨read, stop, lexes, by simp [endToken]⟩
    · rw [lexFrom_error leads] at lexed
      cases lexed
  · rintro ⟨read, stop, lexes, rfl⟩
    rw [lex, lexes.lexFrom #[], lexFrom]
    simp [Except.map, endToken]

/-- The lexer fails just if it comes to an error. -/
theorem lex_eq_error {source : String} {e : LexError} : lex source = .error e ↔
    ∃ read start text rest, Lexes 0 source.toList read start (text ++ rest) ∧
      (Lexeme.error e.kind).Leads text rest ∧
      e.span = Span.ofRange start (start + byteLength text) := by
  obtain ⟨read, stop, last, lexes, ends⟩ := exists_lexes 0 source.toList
  have run := lexes.lexFrom #[]
  constructor
  · intro lexed
    rw [lex, run] at lexed
    rcases ends with rfl | ⟨kind, text, rest, rfl, leads⟩
    · rw [lexFrom] at lexed
      cases lexed
    · rw [lexFrom_error leads] at lexed
      cases lexed
      exact ⟨read, stop, text, rest, lexes, leads, rfl⟩
  · rintro ⟨read, start, text, rest, lexes, leads, span⟩
    rw [lex, lexes.lexFrom #[], lexFrom_error leads]
    cases e
    cases span
    rfl

end Lu
