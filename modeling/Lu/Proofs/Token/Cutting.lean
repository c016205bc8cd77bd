import Lu.Proofs.Token.Found

namespace Lu

/-!
What the lexer finds in front of a text stays as it is when the text behind it is cut off, or when a
semicolon takes its place: no token but the semicolon and strings has one in it.
-/

section Semicolons

variable {mid tail other : List Char}

/-- What holds of the first character of a text, and of a semicolon, holds once the text is cut. -/
theorem head_cut {p : Char → Prop} (ends : ∀ c ∈ other.head?, c = ';') (semicolon : p ';')
    (stops : ∀ c ∈ (mid ++ tail).head?, p c) : ∀ c ∈ (mid ++ other).head?, p c := by
  cases mid with
  | nil => exact fun c first => ends c first ▸ semicolon
  | cons => exact stops

/-- A text without a semicolon does not reach into what begins with one. -/
theorem prefix_cut {front text : List Char} (ends : ∀ c ∈ other.head?, c = ';')
    (none : ∀ c ∈ front, c ≠ ';') (begins : front <+: text ++ other) : front <+: text := by
  have all : ∀ c ∈ front, decide (c ≠ ';') = true := by simpa using none
  have stops : ∀ c ∈ other.head?, decide (c ≠ ';') = false := by simpa using ends
  exact prefix_of_class all stops begins

theorem not_begins_cut {pattern : Language Char} {text : List Char}
    (none : ∀ front ∈ pattern, ∀ c ∈ front, c ≠ ';') (ends : ∀ c ∈ other.head?, c = ';')
    (not : ¬ Pattern.Begins pattern (text ++ tail)) : ¬ Pattern.Begins pattern (text ++ other) := by
  rintro ⟨front, matched, begins⟩
  have within := prefix_cut ends (none front matched) begins
  exact not ⟨front, matched, within.trans (List.prefix_append ..)⟩

end Semicolons

section Patterns

theorem not_semicolon_of_part {base : Nat} {c : Char} (part : isDigitPart base c = true) : c ≠ ';' := by
  rintro rfl
  cases part

theorem digits_no_semicolon : ∀ text ∈ Pattern.digits, ∀ c ∈ text, c ≠ ';' := by
  intro text isDigits
  obtain ⟨d, ds, digit, parts, rfl⟩ := Pattern.mem_digits.mp isDigits
  refine List.forall_mem_cons.mpr ⟨?_, fun c member => not_semicolon_of_part (parts c member)⟩
  rintro rfl
  exact absurd digit (by decide)

theorem based_no_semicolon : ∀ text ∈ Pattern.hexInt + Pattern.binInt, ∀ c ∈ text, c ≠ ';' := by
  intro text isBased
  obtain ⟨letter, base, d, ds, announced, digit, parts, rfl⟩ := Pattern.mem_based.mp isBased
  refine List.forall_mem_cons.mpr ⟨by decide, List.forall_mem_cons.mpr ⟨?_,
    List.forall_mem_cons.mpr ⟨?_, fun c member => not_semicolon_of_part (parts c member)⟩⟩⟩
  · rintro rfl
    cases announced
  · rintro rfl
    cases digit

theorem exponent_no_semicolon : ∀ text ∈ Pattern.exponent, ∀ c ∈ text, c ≠ ';' := by
  intro text isExponent
  obtain ⟨e, sign, d, ds, isE, signs, all, rfl⟩ := Pattern.mem_exponent.mp isExponent
  intro c member
  rintro rfl
  rcases List.mem_cons.mp member with rfl | member
  · rcases isE with same | same <;> exact absurd same (by decide)
  rcases List.mem_append.mp member with member | member
  · rcases signs with rfl | rfl | rfl <;> simp at member
  · exact absurd (all _ member) (by decide)

theorem point_no_semicolon :
    ∀ text ∈ Pattern.exactly ['.'] * Pattern.digits, ∀ c ∈ text, c ≠ ';' := by
  intro text point
  obtain ⟨fraction, isDigits, rfl⟩ := Pattern.mem_exactly_mul.mp point
  exact List.forall_mem_cons.mpr ⟨by decide, digits_no_semicolon fraction isDigits⟩

end Patterns

section Cutting

variable {lexeme : Lexeme} {text mid tail other : List Char}

theorem Number.cut (number : Number ⟨lexeme, text, mid ++ tail⟩) (ends : ∀ c ∈ other.head?, c = ';') :
    Number ⟨lexeme, text, mid ++ other⟩ := by
  -- Whether an integer is in range has nothing to do with the text behind it.
  have behind {base : Nat} {digits whole rest : List Char}
      (shape : ⟨lexeme, text, mid ++ tail⟩ = intPiece base digits whole rest) :
      text = whole ∧ rest = mid ++ tail ∧
        ⟨lexeme, text, mid ++ other⟩ = intPiece base digits whole (mid ++ other) := by
    unfold intPiece at shape ⊢
    split at shape <;> cases shape <;> exact ⟨rfl, rfl, rfl⟩
  generalize shape : (⟨lexeme, text, mid ++ tail⟩ : Piece) = piece at number
  cases number with
  | based announced digit parts stops =>
    obtain ⟨rfl, rfl, same⟩ := behind shape
    rw [same]
    exact .based announced digit parts (head_cut ends rfl stops)
  | @int whole rest isWhole stops based point power =>
    obtain ⟨rfl, rfl, same⟩ := behind shape
    rw [same]
    refine .int isWhole (head_cut ends rfl stops) ?_ (not_begins_cut point_no_semicolon ends point)
      (not_begins_cut exponent_no_semicolon ends power)
    rw [← List.append_assoc] at based ⊢
    exact not_begins_cut based_no_semicolon ends based
  | power isWhole isPower stops =>
    cases shape
    exact .power isWhole isPower (head_cut ends rfl stops)
  | point isWhole isFraction stops power =>
    cases shape
    exact .point isWhole isFraction (head_cut ends rfl stops)
      (not_begins_cut exponent_no_semicolon ends power)
  | pointPower isWhole isFraction isPower stops =>
    cases shape
    exact .pointPower isWhole isFraction isPower (head_cut ends rfl stops)

/-- The lexeme is found with the text behind it cut off too. A gap can end where it is cut only if
nothing follows it any more. -/
theorem Found.cut (found : Found lexeme text (mid ++ tail)) (sound : ∀ kind, lexeme ≠ .error kind)
    (ends : ∀ c ∈ other.head?, c = ';') (gap : lexeme = .gap → mid = [] → other = []) :
    Found lexeme text (mid ++ other) := by
  generalize shape : mid ++ tail = rest at found
  cases found with
  | spaces text stops =>
    subst shape
    exact .spaces text (head_cut ends rfl stops)
  | lineComment text stops =>
    subst shape
    refine .lineComment text ?_
    cases mid with
    | nil =>
      rw [gap rfl rfl]
      exact nofun
    | cons c mid => exact stops
  | blockComment none => exact .blockComment none
  | openComment => exact (sound _ rfl).elim
  | number number =>
    subst shape
    exact .number (number.cut ends)
  | keyword stops =>
    subst shape
    exact .keyword (head_cut ends rfl stops)
  | identifier name stops =>
    subst shape
    exact .identifier name (head_cut ends rfl stops)
  | string string read => exact .string string read
  | badString => exact (sound _ rfl).elim
  | openString => exact (sound _ rfl).elim
  | single single alone slash =>
    subst shape
    exact .single single (head_cut ends (by simp [doubleMark?]) alone) fun isSlash =>
      head_cut ends (by decide) (slash isSlash)
  | double double => exact .double double
  | invalid => exact (sound _ rfl).elim

theorem Lexeme.Leads.cut (leads : lexeme.Leads text (mid ++ tail)) (sound : ∀ kind, lexeme ≠ .error kind)
    (ends : ∀ c ∈ other.head?, c = ';') (gap : lexeme = .gap → mid = [] → other = []) :
    lexeme.Leads text (mid ++ other) :=
  (leads.found.cut sound ends gap).leads sound

end Cutting

namespace Lexes

variable {offset stop : Nat} {tokens : List Token} {keep tail other : List Char}

/-- What the lexer has read is read too with the text behind it cut off, from wherever it starts. -/
theorem cut {chars : List Char} (lexes : Lexes offset chars tokens stop (keep ++ tail))
    (ends : ∀ c ∈ other.head?, c = ';') (closed : keep = [] → other = []) :
    ∃ body, chars = body ++ (keep ++ tail) ∧
      Lexes offset (body ++ (keep ++ other)) tokens stop (keep ++ other) := by
  generalize whole : keep ++ tail = last at lexes
  induction lexes with
  | here => exact ⟨[], rfl, .here⟩
  | @gap offset text rest tokens stop last leads _ ih =>
    obtain ⟨body, rfl, lexes⟩ := ih whole
    refine ⟨text ++ body, (List.append_assoc ..).symm, ?_⟩
    subst whole
    rw [← List.append_assoc] at leads
    rw [List.append_assoc]
    refine .gap ?_ lexes
    rw [← List.append_assoc]
    exact leads.cut nofun ends fun _ empty => closed (List.append_eq_nil_iff.mp empty).2
  | @token offset kind text rest tokens stop last leads _ ih =>
    obtain ⟨body, rfl, lexes⟩ := ih whole
    refine ⟨text ++ body, (List.append_assoc ..).symm, ?_⟩
    subst whole
    rw [← List.append_assoc] at leads
    rw [List.append_assoc]
    refine .token ?_ lexes
    rw [← List.append_assoc]
    exact leads.cut nofun ends nofun

variable {chars last : List Char} {token : Token} {front back : List Token}

/-- The lexer can start right in front of any token. -/
theorem cut_before (lexes : Lexes offset chars (front ++ token :: back) stop last) :
    ∃ before rest start «end» kind, chars = before ++ rest ∧ start = offset + byteLength before ∧
      Lexes start rest (token :: back) stop last ∧ start ≤ «end» ∧ «end» ≤ stop ∧
      token = ⟨kind, Span.ofRange start «end»⟩ := by
  obtain ⟨start, kind, text, rest, reached, leads, rfl, later⟩ := lexes.at_token
  obtain ⟨before, rfl, length⟩ := reached.split
  obtain ⟨_, -, length'⟩ := later.split
  exact ⟨before, text ++ rest, start, start + byteLength text, kind, rfl, length, .token leads later,
    by omega, by omega, rfl⟩

/-- The text can be cut right behind any token. -/
theorem cut_behind (lexes : Lexes offset chars (front ++ token :: back) stop last)
    (ends : ∀ c ∈ other.head?, c = ';') : ∃ text rest start kind «end», chars = text ++ rest ∧
      Lexes offset (text ++ other) (front ++ [token]) «end» other ∧ start ≤ «end» ∧ «end» ≤ stop ∧
      token = ⟨kind, Span.ofRange start «end»⟩ := by
  obtain ⟨start, kind, text, rest, before, leads, rfl, later⟩ := lexes.at_token
  obtain ⟨body, rfl, cutBefore⟩ := before.cut ends fun empty => (leads.ne_nil empty).elim
  obtain ⟨_, -, length⟩ := later.split
  have cutToken : (Lexeme.token kind).Leads text ([] ++ other) := leads.cut nofun ends nofun
  refine ⟨body ++ text, rest, start, kind, start + byteLength text, ?_, ?_, by omega, by omega, rfl⟩
  · rw [List.append_assoc]
  · rw [List.append_assoc]
    exact cutBefore.append (.token cutToken .here)

end Lexes

end Lu
