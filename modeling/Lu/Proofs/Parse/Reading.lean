import Lu.Parse.Grammar
import Lu.Proofs.Parse.Grammar
import Lu.Proofs.Token.Ending

namespace Lu

/-!
What a parser does with the tokens to come: which of them it reads, if it succeeds (`Reads`), and
that it succeeds on tokens that begin as they should (`Accepts`).
-/

/-- Marks and keywords are alone in their kind. -/
def TokenKind.IsFixed : TokenKind → Prop
  | .mark _ | .keyword _ => True
  | _ => False

theorem TokenKind.sameKind_iff {kind other : TokenKind} (fixed : other.IsFixed) :
    kind.sameKind other = true ↔ kind = other := by
  cases other with
  | mark m => cases kind <;> simp [sameKind]
  | keyword k => cases kind <;> simp [sameKind]
  | int | float | str | ident | eof => exact fixed.elim

theorem TokenKind.sameKind_eof {kind : TokenKind} : kind.sameKind .eof = true ↔ kind = .eof := by
  cases kind <;> simp [sameKind]

theorem TokenKind.IsFixed.ne_eof {kind : TokenKind} (fixed : kind.IsFixed) : kind ≠ .eof := by
  rintro rfl
  exact fixed

section Tables

variable {kind : TokenKind}

theorem prefixOp?_eq_some {op : UnaryOp} : prefixOp? kind = some op ↔ kind = .mark op.mark := by
  constructor
  · intro found
    unfold prefixOp? at found
    split at found <;> cases found <;> rfl
  · rintro rfl
    cases op <;> rfl

theorem literalValue?_eq_some {value : Value} :
    literalValue? kind = some value ↔ Literal kind value := by
  constructor
  · intro found
    unfold literalValue? at found
    split at found <;> cases found <;> constructor
  · intro literal
    cases literal <;> rfl

theorem binaryLevels_level : ∀ i : Fin binaryLevels.length, ∀ pair ∈ binaryLevels.get i,
    pair.1 = pair.2.mark ∧ pair.2.level = i + 1 := by
  decide

/-- The levels of the parser are those of the grammar. -/
theorem operatorIn?_eq_some {index : Nat} {level : List (Mark × BinaryOp)} {op : BinaryOp}
    (atLevel : binaryLevels[index]? = some level) :
    operatorIn? level kind = some op ↔ kind = .mark op.mark ∧ op.level = index + 1 := by
  constructor
  · intro found
    obtain ⟨bound, rfl⟩ := List.getElem?_eq_some_iff.mp atLevel
    unfold operatorIn? at found
    split at found
    · rename_i m
      obtain ⟨before, after, shape, -⟩ := List.lookup_eq_some_iff.mp found
      have member : (m, op) ∈ binaryLevels[index] := by
        rw [shape]
        exact List.mem_append_right _ (List.mem_cons_self ..)
      obtain ⟨same, atIndex⟩ := binaryLevels_level ⟨index, bound⟩ _ member
      exact ⟨congrArg _ same, atIndex⟩
    · cases found
  · rintro ⟨rfl, atIndex⟩
    cases op <;> obtain rfl : index = _ := (Nat.succ.inj atIndex).symm <;> cases atLevel <;> rfl

end Tables

namespace ParseState

variable {state : ParseState} {kind : TokenKind} {rest : List TokenKind}

/-- The kinds of the tokens to come. -/
def ahead (state : ParseState) : List TokenKind := state.cursor.ahead.map Token.kind

/-- How many tokens are left. -/
def left (state : ParseState) : Nat := state.ahead.length

/-- The state after the current token. -/
def next (state : ParseState) : ParseState := { state with cursor := state.cursor.advance }

theorem currentKind_eq (shape : state.ahead = kind :: rest) : state.cursor.currentKind = kind := by
  obtain ⟨⟨passed, ahead⟩, number⟩ := state
  cases ahead with
  | nil => cases shape
  | cons token ahead =>
    cases shape
    rfl

theorem ahead_next (shape : state.ahead = kind :: rest) : state.next.ahead = rest := by
  obtain ⟨⟨passed, ahead⟩, number⟩ := state
  cases ahead with
  | nil => cases shape
  | cons token ahead =>
    cases shape
    rfl

theorem check_iff {other : TokenKind} (shape : state.ahead = kind :: rest) (fixed : other.IsFixed) :
    state.cursor.check other = true ↔ kind = other := by
  rw [Cursor.check, currentKind_eq shape, TokenKind.sameKind_iff fixed]

end ParseState

namespace Parser

variable {α β : Type} {state : ParseState} {kind : TokenKind} {first : Parser α}
  {next : α → Parser β}

section Steps

variable {rest : List TokenKind}

theorem eat_hit {next : Bool → Parser β} (fixed : kind.IsFixed) (shape : state.ahead = kind :: rest) :
    (eat kind >>= next) state = next true state.next := by
  have hit := (ParseState.check_iff shape fixed).mpr rfl
  simp only [bind_apply, eat, hit, if_true]
  rfl

theorem eat_miss {next : Bool → Parser β} (missed : ¬ state.cursor.check kind = true) :
    (eat kind >>= next) state = next false state := by
  simp only [bind_apply, eat, missed, Bool.false_eq_true, if_false]

theorem expect_hit {next : Token → Parser β} (fixed : kind.IsFixed)
    (shape : state.ahead = kind :: rest) :
    (expect kind >>= next) state = next state.cursor.current state.next := by
  have hit := (ParseState.check_iff shape fixed).mpr rfl
  simp only [bind_apply, expect, hit, if_true]
  rfl

theorem expect_miss {next : Token → Parser β} (missed : ¬ state.cursor.check kind = true) :
    ∃ e, (expect kind >>= next) state = .failed e := by
  simp only [bind_apply, expect, missed, Bool.false_eq_true, if_false]
  exact ⟨_, rfl⟩

theorem expectIdent_hit {next : String × Span → Parser β} {name : String}
    (shape : state.ahead = .ident name :: rest) :
    (expectIdent >>= next) state = next (name, state.cursor.current.span) state.next := by
  have current : state.cursor.current.kind = .ident name := ParseState.currentKind_eq shape
  simp only [bind_apply, expectIdent, current]
  rfl

theorem expectIdent_miss {next : String × Span → Parser β} (shape : state.ahead = kind :: rest)
    (other : ∀ name, kind ≠ .ident name) : ∃ e, (expectIdent >>= next) state = .failed e := by
  have current : state.cursor.current.kind = kind := ParseState.currentKind_eq shape
  simp only [bind_apply, expectIdent, current]
  cases kind with
  | ident name => exact (other name rfl).elim
  | int | float | str | keyword | mark | eof => exact ⟨_, rfl⟩

end Steps

theorem bind_map {γ : Type} (p : Parser γ) (f : γ → α) (next : α → Parser β) :
    (f <$> p >>= next) = (p >>= fun value => next (f value)) := by
  funext state
  change Parser.bind (Parser.bind p fun value => Parser.pure (f value)) next state = _
  simp only [bind_apply, Parser.bind, Parser.pure]
  cases p state <;> rfl

section Reads

variable {short : Prop} {post : List TokenKind → β → ParseState → Prop}

/-- If the parser succeeds, the promise holds of the tokens it has read, its value, and the state
after them. It runs out of fuel only where the fuel is `short`. -/
def Reads (p : Parser α) (state : ParseState) (short : Prop)
    (post : List TokenKind → α → ParseState → Prop) : Prop :=
  match p state with
  | .done value after => ∃ tokens, state.ahead = tokens ++ after.ahead ∧ EndsInEof after.ahead ∧
      post tokens value after
  | .failed _ => True
  | .outOfFuel => short

theorem Reads.pure {value : β} (ends : EndsInEof state.ahead)
    (done : post [] value state) : Reads (pure value) state short post :=
  ⟨[], rfl, ends, done⟩

theorem Reads.bind {mid : List TokenKind → α → ParseState → Prop}
    (atFirst : Reads first state short mid)
    (atNext : ∀ tokens value after, EndsInEof after.ahead →
      after.left + tokens.length = state.left → mid tokens value after →
      Reads (next value) after short fun more => post (tokens ++ more)) :
    Reads (first >>= next) state short post := by
  unfold Reads at atFirst ⊢
  rw [bind_apply]
  generalize first state = result at atFirst ⊢
  cases result with
  | done value after =>
    obtain ⟨tokens, shape, ends, done⟩ := atFirst
    have left : after.left + tokens.length = state.left := by
      rw [ParseState.left, ParseState.left, shape, List.length_append, Nat.add_comm]
    have later := atNext tokens value after ends left done
    unfold Reads at later
    simp only
    generalize next value after = result at later ⊢
    cases result with
    | done value' after' =>
      obtain ⟨more, shape', ends', done'⟩ := later
      exact ⟨tokens ++ more, by rw [shape, shape', List.append_assoc], ends', done'⟩
    | failed e => trivial
    | outOfFuel => exact later
  | failed e => trivial
  | outOfFuel => exact atFirst

theorem Reads.mono {less : Prop} {stronger : List TokenKind → β → ParseState → Prop} {p : Parser β}
    (reads : Reads p state less stronger) (fuel : less → short)
    (imp : ∀ tokens value last, stronger tokens value last → post tokens value last) :
    Reads p state short post := by
  unfold Reads at reads ⊢
  generalize p state = result at reads ⊢
  cases result with
  | done value after =>
    obtain ⟨tokens, shape, ends, done⟩ := reads
    exact ⟨tokens, shape, ends, imp _ _ _ done⟩
  | failed e => trivial
  | outOfFuel => exact fuel reads

theorem Reads.shorter {less : Prop} {p : Parser β} (reads : Reads p state less post)
    (fuel : less → short) : Reads p state short post :=
  reads.mono fuel fun _ _ _ done => done

/-- What a parser has read is what is missing afterwards. -/
theorem Reads.shape {p : Parser β} (reads : Reads p state short post) :
    Reads p state short fun tokens value last =>
      post tokens value last ∧ state.ahead = tokens ++ last.ahead := by
  unfold Reads at reads ⊢
  generalize p state = result at reads ⊢
  cases result with
  | done value after =>
    obtain ⟨tokens, shape, ends, done⟩ := reads
    exact ⟨tokens, shape, ends, done, shape⟩
  | failed e => trivial
  | outOfFuel => exact reads

theorem Reads.fail {errorKind : ParseErrorKind} {span : Span} :
    Reads (fail errorKind span) state short post := trivial

theorem Reads.outOfFuel (fuel : short) : Reads outOfFuel state short post := fuel

theorem Reads.bind_cursor {next : Cursor → Parser β}
    (rest : Reads (next state.cursor) state short post) :
    Reads (cursor >>= next) state short post := rest

theorem Reads.bind_pure {value : α} (rest : Reads (next value) state short post) :
    Reads (Pure.pure value >>= next) state short post := rest

/-- The span of what has been read costs nothing. -/
theorem Reads.bind_covered {span : Cursor → Span} {next : Span → Parser β}
    (rest : Reads (next (span state.cursor)) state short post) :
    Reads ((do return span (← cursor)) >>= next) state short post := rest

/-- A parser that goes on behind a token other than the end of file. -/
theorem Reads.behind (ends : EndsInEof state.ahead) {p q : Parser β} {rest : List TokenKind}
    (shape : state.ahead = kind :: rest) (other : kind ≠ .eof) (same : p state = q state.next)
    (later : ∀ after : ParseState, EndsInEof after.ahead → after.left + 1 = state.left →
      after.nextFunction = state.nextFunction →
      Reads q after short fun more => post (kind :: more)) :
    Reads p state short post := by
  have remaining := ParseState.ahead_next shape
  rw [← remaining] at shape
  have left : state.next.left + 1 = state.left := by
    rw [ParseState.left, ParseState.left, shape, List.length_cons]
  have read := later state.next ((shape ▸ ends).tail other) left rfl
  unfold Reads at read ⊢
  rw [same]
  generalize q state.next = result at read ⊢
  cases result with
  | done value last =>
    obtain ⟨more, shape', ends', done⟩ := read
    exact ⟨kind :: more, by rw [shape, shape']; rfl, ends', done⟩
  | failed e => trivial
  | outOfFuel => exact read

theorem Reads.of_failed {p : Parser β} (failed : ∃ e, p state = .failed e) :
    Reads p state short post := by
  obtain ⟨e, failed⟩ := failed
  unfold Reads
  rw [failed]
  trivial

theorem Reads.bind_advance {next : Token → Parser β} (ends : EndsInEof state.ahead)
    (current : state.cursor.currentKind = kind) (other : kind ≠ .eof)
    (later : ∀ after : ParseState, EndsInEof after.ahead → after.left + 1 = state.left →
      after.nextFunction = state.nextFunction →
      Reads (next state.cursor.current) after short fun more => post (kind :: more)) :
    Reads (advance >>= next) state short post := by
  obtain ⟨found, rest, shape⟩ := ends.eq_cons
  obtain rfl : kind = found := current.symm.trans (ParseState.currentKind_eq shape)
  exact Reads.behind ends shape other rfl later

theorem Reads.bind_eat {next : Bool → Parser β} (fixed : kind.IsFixed) (ends : EndsInEof state.ahead)
    (eaten : ∀ after : ParseState, EndsInEof after.ahead → after.left + 1 = state.left →
      after.nextFunction = state.nextFunction →
      Reads (next true) after short fun more => post (kind :: more))
    (missing : Reads (next false) state short post) :
    Reads (eat kind >>= next) state short post := by
  obtain ⟨found, rest, shape⟩ := ends.eq_cons
  by_cases hit : state.cursor.check kind = true
  · obtain rfl : found = kind := (ParseState.check_iff shape fixed).mp hit
    exact Reads.behind ends shape fixed.ne_eof (eat_hit fixed shape) eaten
  · unfold Reads
    rw [eat_miss hit]
    exact missing

theorem Reads.bind_expect {next : Token → Parser β} (fixed : kind.IsFixed)
    (ends : EndsInEof state.ahead)
    (later : ∀ token (after : ParseState), EndsInEof after.ahead →
      after.left + 1 = state.left → after.nextFunction = state.nextFunction →
      Reads (next token) after short fun more => post (kind :: more)) :
    Reads (expect kind >>= next) state short post := by
  obtain ⟨found, rest, shape⟩ := ends.eq_cons
  by_cases hit : state.cursor.check kind = true
  · obtain rfl : found = kind := (ParseState.check_iff shape fixed).mp hit
    exact Reads.behind ends shape fixed.ne_eof (expect_hit fixed shape) (later _)
  · exact .of_failed (expect_miss hit)

theorem Reads.bind_ident {next : String × Span → Parser β} (ends : EndsInEof state.ahead)
    (later : ∀ name span (after : ParseState), EndsInEof after.ahead →
      after.left + 1 = state.left → after.nextFunction = state.nextFunction →
      Reads (next (name, span)) after short fun more => post (.ident name :: more)) :
    Reads (expectIdent >>= next) state short post := by
  obtain ⟨found, rest, shape⟩ := ends.eq_cons
  by_cases hit : ∃ name, found = .ident name
  · obtain ⟨name, rfl⟩ := hit
    exact Reads.behind ends shape nofun (expectIdent_hit shape) (later name _)
  · exact .of_failed (expectIdent_miss shape fun name same => hit ⟨name, same⟩)

end Reads

section Accepts

variable {input rest : List TokenKind} {post : β → Prop}

/-- On the input the parser reads up to the given rest, unless it runs out of fuel. -/
def Accepts (p : Parser α) (input rest : List TokenKind) (post : α → Prop) : Prop :=
  ∀ state : ParseState, state.ahead = input → match p state with
    | .done value after => after.ahead = rest ∧ post value
    | .failed _ => False
    | .outOfFuel => True

theorem Accepts.pure {value : β} (done : post value) : Accepts (pure value) rest rest post :=
  fun _ shape => ⟨shape, done⟩

theorem Accepts.bind {between : List TokenKind} {mid : α → Prop}
    (atFirst : Accepts first input between mid)
    (atNext : ∀ value, mid value → Accepts (next value) between rest post) :
    Accepts (first >>= next) input rest post := by
  intro state shape
  have done := atFirst state shape
  rw [bind_apply]
  generalize first state = result at done ⊢
  cases result with
  | done value after => exact atNext value done.2 after done.1
  | failed e => exact done
  | outOfFuel => trivial

theorem Accepts.mono {stronger : β → Prop} {p : Parser β} (accepts : Accepts p input rest stronger)
    (imp : ∀ value, stronger value → post value) : Accepts p input rest post := by
  intro state shape
  have done := accepts state shape
  generalize p state = result at done ⊢
  cases result with
  | done value after => exact ⟨done.1, imp value done.2⟩
  | failed e => exact done
  | outOfFuel => trivial

theorem Accepts.outOfFuel : Accepts outOfFuel input rest post := fun _ _ => trivial

theorem Accepts.bind_cursor {next : Cursor → Parser β}
    (later : ∀ cursor : Cursor, cursor.currentKind = kind →
      Accepts (next cursor) (kind :: input) rest post) :
    Accepts (cursor >>= next) (kind :: input) rest post :=
  fun state shape => later state.cursor (ParseState.currentKind_eq shape) state shape

theorem Accepts.bind_covered {span : Cursor → Span} {next : Span → Parser β}
    (later : ∀ span, Accepts (next span) input rest post) :
    Accepts ((do return span (← cursor)) >>= next) input rest post :=
  fun state shape => later _ state shape

theorem Accepts.bind_freshFunction {next : Nat → Parser β}
    (later : ∀ id, Accepts (next id) input rest post) :
    Accepts (freshFunction >>= next) input rest post :=
  fun state shape => later _ { state with nextFunction := state.nextFunction + 1 } shape

theorem Accepts.bind_advance {next : Token → Parser β}
    (later : ∀ token, Accepts (next token) input rest post) :
    Accepts (advance >>= next) (kind :: input) rest post :=
  fun state shape => later _ state.next (ParseState.ahead_next shape)

theorem Accepts.bind_eat {next : Bool → Parser β} (fixed : kind.IsFixed)
    (later : Accepts (next true) input rest post) :
    Accepts (eat kind >>= next) (kind :: input) rest post := by
  intro state shape
  rw [eat_hit fixed shape]
  exact later state.next (ParseState.ahead_next shape)

theorem Accepts.bind_eat_other {next : Bool → Parser β} {found : TokenKind} (fixed : kind.IsFixed)
    (other : found ≠ kind) (later : Accepts (next false) (found :: input) rest post) :
    Accepts (eat kind >>= next) (found :: input) rest post := by
  intro state shape
  rw [eat_miss fun hit => other ((ParseState.check_iff shape fixed).mp hit)]
  exact later state shape

theorem Accepts.bind_expect {next : Token → Parser β} (fixed : kind.IsFixed)
    (later : ∀ token, Accepts (next token) input rest post) :
    Accepts (expect kind >>= next) (kind :: input) rest post := by
  intro state shape
  rw [expect_hit fixed shape]
  exact later _ state.next (ParseState.ahead_next shape)

theorem Accepts.bind_ident {next : String × Span → Parser β} {name : String}
    (later : ∀ span, Accepts (next (name, span)) input rest post) :
    Accepts (expectIdent >>= next) (.ident name :: input) rest post := by
  intro state shape
  rw [expectIdent_hit shape]
  exact later _ state.next (ParseState.ahead_next shape)

end Accepts

end Parser

end Lu
