import Lu.Proofs.Parse.Covering
import Lu.Proofs.Parse.Reading

namespace Lu

/-!
A parser looks at one token at a time. What it does up to a token is the same whatever comes behind that
token, and where it fails, the tokens in front could have been continued.
-/

/-- Where the error points: at the token that cannot follow the others, or, for the header of `for`, at
the expression in front of that token. -/
inductive ParseError.At (before : List Token) (token : Token) : ParseError → Prop
  | token {kind} : kind ≠ .forHeader → At before token ⟨kind, token.span⟩
  | header {front header : List Token} {word opening : Token} {e : Expr} :
      before = front ++ word :: opening :: header → word.kind = .keyword .forK →
      opening.kind = .mark .leftParen → Expr.Covers 0 header e → e.isAssign = false →
      At before token ⟨.forHeader, extent header⟩

namespace Cursor

variable {cursor after : Cursor} {read : List Token}

/-- Between the two places the tokens have been read. -/
structure Reaches (cursor : Cursor) (read : List Token) (after : Cursor) : Prop where
  ahead : cursor.ahead = read ++ after.ahead
  passed : after.passed = read.reverse ++ cursor.passed

/-- The tokens to come are in order, and end in their only end of file. -/
structure Ready (cursor : Cursor) : Prop where
  ends : EndsInEof (cursor.ahead.map Token.kind)
  ordered : Ordered cursor.ahead

theorem currentKind_congr {other : Cursor} (same : other.current = cursor.current) :
    other.currentKind = cursor.currentKind := congrArg Token.kind same

theorem currentSpan_congr {other : Cursor} (same : other.current = cursor.current) :
    other.currentSpan = cursor.currentSpan := congrArg Token.span same

theorem check_congr {other : Cursor} (same : other.current = cursor.current) (kind : TokenKind) :
    other.check kind = cursor.check kind := congrArg (·.kind.sameKind kind) same

theorem isAtEnd_congr {other : Cursor} (same : other.current = cursor.current) :
    other.isAtEnd = cursor.isAtEnd := check_congr same .eof

theorem Reaches.trans {last : Cursor} {more : List Token} (reached : cursor.Reaches read after)
    (further : after.Reaches more last) : cursor.Reaches (read ++ more) last :=
  ⟨by rw [reached.ahead, further.ahead, List.append_assoc],
    by rw [further.passed, reached.passed, List.reverse_append, List.append_assoc]⟩

theorem Ready.eq_cons (ready : cursor.Ready) : ∃ rest, cursor.ahead = cursor.current :: rest := by
  obtain ⟨kind, kinds, shape⟩ := ready.ends.eq_cons
  obtain ⟨token, rest, shape, -⟩ := List.map_eq_cons_iff.mp shape
  exact ⟨rest, by simp [current, shape]⟩

theorem Ready.advance_reached (ready : cursor.Ready) :
    cursor.Reaches [cursor.current] cursor.advance := by
  obtain ⟨rest, shape⟩ := ready.eq_cons
  constructor <;> simp [advance, shape]

theorem Ready.advance (ready : cursor.Ready) (inner : cursor.currentKind ≠ .eof) :
    cursor.advance.Ready := by
  have shape := ready.advance_reached.ahead
  have ends := ready.ends
  have ordered := ready.ordered
  rw [shape] at ends ordered
  exact ⟨ends.tail inner, ordered.tail⟩

theorem Reaches.read_ordered (reached : cursor.Reaches read after) (ready : cursor.Ready) :
    Ordered read := by
  have ordered := ready.ordered
  rw [reached.ahead] at ordered
  exact ordered.left

/-- The current span and then the previous one enclose what has been read in between. -/
theorem Reaches.covered (reached : cursor.Reaches read after) (ready : cursor.Ready)
    (nonempty : read ≠ []) : cursor.currentSpan.merge after.previousSpan = extent read := by
  have ordered := reached.read_ordered ready
  obtain ⟨first, more, shape⟩ := List.exists_cons_of_ne_nil nonempty
  obtain ⟨front, last, shape'⟩ := read.eq_nil_or_concat'.resolve_left nonempty
  have atFirst : cursor.currentSpan = first.span := by
    rw [currentSpan, current, reached.ahead, shape, List.cons_append]
  have atLast : after.previousSpan = last.span := by
    rw [previousSpan, reached.passed, shape', List.reverse_append]
    rfl
  rw [atFirst, atLast, ordered.enclosed shape shape']

end Cursor

/-- The same place in front of other tokens. -/
def ParseState.facing (rest : List Token) (state : ParseState) : ParseState :=
  { state with cursor := { state.cursor with ahead := rest } }

theorem ParseState.current_facing {state : ParseState} {rest : List Token}
    (same : rest.head? = state.cursor.ahead.head?) :
    (state.facing rest).cursor.current = state.cursor.current := by
  obtain ⟨⟨passed, ahead⟩, number⟩ := state
  cases rest <;> cases ahead <;> simp_all [facing, Cursor.current]

/-- Behind the current token the rest is as it was put there. -/
theorem ParseState.next_facing {state : ParseState} (ready : state.cursor.Ready) (rest : List Token) :
    (state.facing (state.cursor.current :: rest)).next = state.next.facing rest := by
  have passed : state.next.cursor.passed = state.cursor.current :: state.cursor.passed :=
    ready.advance_reached.passed
  simp only [facing, passed]
  rfl

namespace Parser

variable {α β : Type} {state : ParseState} {kind : TokenKind} {first : Parser α} {p q : Parser β}
  {next : α → Parser β} {post : List Token → β → ParseState → Prop} {goal : List TokenKind → Prop}

/-- If the parser succeeds, the promise holds of the tokens it has read, its value, and the state after
them; with the same next token it does so again. If it fails, what it has read up to a token can be
continued to the goal, the error points there, and with the same token it fails again. -/
def Advances (p : Parser α) (state : ParseState) (post : List Token → α → ParseState → Prop)
    (goal : List TokenKind → Prop) : Prop :=
  match p state with
  | .done value after => ∃ read, state.cursor.Reaches read after.cursor ∧ after.cursor.Ready ∧
      post read value after ∧ ∀ rest, rest.head? = after.cursor.ahead.head? →
        p (state.facing (read ++ rest)) = .done value (after.facing rest)
  | .failed e => ∃ read token back, state.cursor.ahead = read ++ token :: back ∧
      e.At (state.cursor.passed.reverse ++ read) token ∧
      (∃ more, goal (read.map Token.kind ++ more)) ∧
      ∀ others, p (state.facing (read ++ token :: others)) = .failed e
  | .outOfFuel => True

theorem Advances.outOfFuel : Advances outOfFuel state post goal := trivial

/-- The parser reads the current token. -/
theorem Advances.take {value : β} (ready : state.cursor.Ready)
    (inner : state.cursor.currentKind ≠ .eof)
    (run : ∀ s : ParseState, s.cursor.current = state.cursor.current → p s = .done value s.next)
    (done : post [state.cursor.current] value state.next) : Advances p state post goal := by
  unfold Advances
  rw [run state rfl]
  refine ⟨[state.cursor.current], ready.advance_reached, ready.advance inner, done, fun rest _ => ?_⟩
  have start := run (state.facing (state.cursor.current :: rest)) rfl
  rwa [ParseState.next_facing ready] at start

/-- The parser only looks at the current token. -/
theorem Advances.stay {value : β} (ready : state.cursor.Ready)
    (run : ∀ s : ParseState, s.cursor.current = state.cursor.current → p s = .done value s)
    (done : post [] value state) : Advances p state post goal := by
  unfold Advances
  rw [run state rfl]
  exact ⟨[], ⟨rfl, rfl⟩, ready, done, fun rest next => run _ (ParseState.current_facing next)⟩

/-- The parser fails at the current token. -/
theorem Advances.stop (e : ParseError) (ready : state.cursor.Ready)
    (run : ∀ s : ParseState, s.cursor.current = state.cursor.current → p s = .failed e)
    (atCurrent : e.At state.cursor.passed.reverse state.cursor.current)
    (viable : ∃ more, goal more) : Advances p state post goal := by
  obtain ⟨rest, shape⟩ := ready.eq_cons
  unfold Advances
  rw [run state rfl]
  rw [← List.append_nil state.cursor.passed.reverse] at atCurrent
  exact ⟨[], state.cursor.current, rest, shape, atCurrent, viable, fun others => run _ rfl⟩

theorem Advances.pure {value : β} (ready : state.cursor.Ready) (done : post [] value state) :
    Advances (pure value) state post goal :=
  .stay ready (fun _ _ => rfl) done

theorem Advances.fail {errorKind : ParseErrorKind} (ready : state.cursor.Ready)
    (other : errorKind ≠ .forHeader) (viable : ∃ more, goal more) :
    Advances (fail errorKind state.cursor.current.span) state post goal :=
  .stop _ ready (fun _ _ => rfl) (.token other) viable

theorem Advances.mono {stronger : List Token → β → ParseState → Prop} {sub : List TokenKind → Prop}
    (advances : Advances p state stronger sub) (lift : ∀ tokens, sub tokens → goal tokens)
    (imp : ∀ read value after, stronger read value after → post read value after) :
    Advances p state post goal := by
  unfold Advances at advances ⊢
  generalize p state = result at advances ⊢
  cases result with
  | done value after =>
    obtain ⟨read, reached, ready, done, again⟩ := advances
    exact ⟨read, reached, ready, imp _ _ _ done, again⟩
  | failed e =>
    obtain ⟨read, token, back, shape, atToken, ⟨more, continued⟩, again⟩ := advances
    exact ⟨read, token, back, shape, atToken, ⟨more, lift _ continued⟩, again⟩
  | outOfFuel => trivial

/-- The promise may mention the tokens that have been read. -/
theorem Advances.reached (advances : Advances p state post goal) :
    Advances p state (fun read value after =>
      post read value after ∧ state.cursor.Reaches read after.cursor) goal := by
  unfold Advances at advances ⊢
  generalize p state = result at advances ⊢
  cases result with
  | done value after =>
    obtain ⟨read, reached, ready, done, again⟩ := advances
    exact ⟨read, reached, ready, ⟨done, reached⟩, again⟩
  | failed | outOfFuel => exact advances

/-- It is enough to keep the promise about tokens that have been read. -/
theorem Advances.reading (advances : Advances p state (fun read value after =>
    state.cursor.Reaches read after.cursor → post read value after) goal) :
    Advances p state post goal :=
  advances.reached.mono (fun _ done => done) fun _ _ _ ⟨keeps, reached⟩ => keeps reached

/-- Two parsers that do the same with the token at hand. -/
theorem Advances.congr (advances : Advances q state post goal)
    (same : ∀ rest, rest.head? = state.cursor.ahead.head? →
      p (state.facing rest) = q (state.facing rest)) : Advances p state post goal := by
  have here : p state = q state := same state.cursor.ahead rfl
  unfold Advances at advances ⊢
  rw [here]
  generalize q state = result at advances ⊢
  cases result with
  | done value after =>
    obtain ⟨read, reached, ready, done, again⟩ := advances
    refine ⟨read, reached, ready, done, fun rest next => ?_⟩
    rw [same _ (by rw [reached.ahead, List.head?_append, List.head?_append, next]), again rest next]
  | failed e =>
    obtain ⟨read, token, back, shape, atToken, viable, again⟩ := advances
    refine ⟨read, token, back, shape, atToken, viable, fun others => ?_⟩
    rw [same _ (by rw [shape, List.head?_append, List.head?_append]; rfl), again others]
  | outOfFuel => trivial

theorem Advances.bind {mid : List Token → α → ParseState → Prop} {sub : List TokenKind → Prop}
    (atFirst : Advances first state mid sub)
    (lift : ∀ tokens, sub tokens → ∃ more, goal (tokens ++ more))
    (atNext : ∀ read value after, after.cursor.Ready → mid read value after →
      Advances (next value) after (fun more => post (read ++ more))
        fun more => goal (read.map Token.kind ++ more)) :
    Advances (first >>= next) state post goal := by
  unfold Advances at atFirst ⊢
  rw [bind_apply]
  generalize first state = result at atFirst ⊢
  cases result with
  | done value after =>
    obtain ⟨read, reached, ready, done, again⟩ := atFirst
    have later := atNext read value after ready done
    unfold Advances at later
    simp only
    generalize found : next value after = result at later ⊢
    cases result with
    | done value' after' =>
      obtain ⟨more, reached', ready', done', again'⟩ := later
      refine ⟨read ++ more, reached.trans reached', ready', done', fun rest same => ?_⟩
      -- The first parser sees no further than the token at which the second one began.
      have seen : (more ++ rest).head? = after.cursor.ahead.head? := by
        rw [reached'.ahead, List.head?_append, List.head?_append, same]
      rw [bind_apply, List.append_assoc, again _ seen]
      exact again' rest same
    | failed e =>
      obtain ⟨more, token, back, shape, atToken, viable, again'⟩ := later
      refine ⟨read ++ more, token, back, by rw [reached.ahead, shape, List.append_assoc], ?_, ?_,
        fun others => ?_⟩
      · simpa [reached.passed] using atToken
      · simpa using viable
      · have seen : (more ++ token :: others).head? = after.cursor.ahead.head? := by
          rw [shape, List.head?_append, List.head?_append]
          rfl
        rw [bind_apply, List.append_assoc, again _ seen]
        exact again' others
    | outOfFuel => trivial
  | failed e =>
    obtain ⟨read, token, back, shape, atToken, ⟨more, continued⟩, again⟩ := atFirst
    obtain ⟨rest, reached⟩ := lift _ continued
    refine ⟨read, token, back, shape, atToken, ⟨more ++ rest, by rwa [← List.append_assoc]⟩,
      fun others => ?_⟩
    rw [bind_apply, again others]
  | outOfFuel => trivial

/-- Where the goal of the first parser is one of both. -/
theorem Advances.bind_whole {mid : List Token → α → ParseState → Prop} {sub : List TokenKind → Prop}
    (atFirst : Advances first state mid sub) (lift : ∀ tokens, sub tokens → goal tokens)
    (atNext : ∀ read value after, after.cursor.Ready → mid read value after →
      Advances (next value) after (fun more => post (read ++ more))
        fun more => goal (read.map Token.kind ++ more)) :
    Advances (first >>= next) state post goal :=
  atFirst.bind (fun tokens done => ⟨[], by rw [List.append_nil]; exact lift tokens done⟩) atNext

/-- The value is changed at the end, and nothing more is read. -/
theorem Advances.returning {mid : List Token → α → ParseState → Prop} {sub : List TokenKind → Prop}
    {f : α → β} (atFirst : Advances first state mid sub) (lift : ∀ tokens, sub tokens → goal tokens)
    (imp : ∀ read value after, mid read value after → post read (f value) after) :
    Advances (first >>= fun value => Pure.pure (f value)) state post goal :=
  atFirst.bind_whole lift fun read value after ready done =>
    .pure ready (by rw [List.append_nil]; exact imp _ _ _ done)

theorem Advances.bind_cursor {next : Cursor → Parser β}
    (same : ∀ other : Cursor, other.current = state.cursor.current → next other = next state.cursor)
    (later : Advances (next state.cursor) state post goal) :
    Advances (cursor >>= next) state post goal :=
  later.congr fun rest seen =>
    congrFun (same (state.facing rest).cursor (ParseState.current_facing seen)) (state.facing rest)

theorem Advances.bind_covered {start : Span} {next : Span → Parser β}
    (later : Advances (next (start.merge state.cursor.previousSpan)) state post goal) :
    Advances ((do return start.merge (← cursor).previousSpan) >>= next) state post goal :=
  later.congr fun _ _ => rfl

theorem Advances.bind_pure {value : α} (later : Advances (next value) state post goal) :
    Advances (Pure.pure value >>= next) state post goal :=
  later.congr fun _ _ => rfl

theorem Advances.bind_freshFunction {next : Nat → Parser β} (ready : state.cursor.Ready)
    (later : ∀ id (after : ParseState), after.cursor.Ready → Advances (next id) after post goal) :
    Advances (freshFunction >>= next) state post goal := by
  have fresh : Advances freshFunction state (fun read _ _ => read = []) (fun _ => False) :=
    ⟨[], ⟨rfl, rfl⟩, ready, rfl, fun _ _ => rfl⟩
  refine fresh.bind (fun _ => False.elim) fun read id after ready done => ?_
  obtain rfl : read = [] := done
  exact later id after ready

section Tokens

theorem advance_advances (ready : state.cursor.Ready) (inner : state.cursor.currentKind ≠ .eof) :
    Advances advance state (fun read token _ => read = [token] ∧ token = state.cursor.current)
      fun _ => False :=
  .take ready inner (fun s same => by rw [advance, same]; rfl) ⟨rfl, rfl⟩

theorem check_of_current {s : ParseState} (fixed : kind.IsFixed)
    (same : s.cursor.current = state.cursor.current) :
    s.cursor.check kind = true ↔ state.cursor.currentKind = kind := by
  rw [Cursor.check, Cursor.currentKind, same, TokenKind.sameKind_iff fixed, Cursor.currentKind]

theorem eat_advances (ready : state.cursor.Ready) (fixed : kind.IsFixed) :
    Advances (eat kind) state (fun read hit after =>
      hit = true ∧ (∃ token, read = [token] ∧ token.kind = kind) ∨
        hit = false ∧ read = [] ∧ after = state)
      fun _ => False := by
  by_cases current : state.cursor.currentKind = kind
  · refine .take ready (current ▸ fixed.ne_eof) (fun s same => ?_) (.inl ⟨rfl, _, rfl, current⟩)
    rw [eat, if_pos ((check_of_current fixed same).mpr current)]
    rfl
  · refine .stay ready (fun s same => ?_) (.inr ⟨rfl, rfl, rfl⟩)
    rw [eat, if_neg (mt (check_of_current fixed same).mp current)]

theorem expect_advances (ready : state.cursor.Ready) (fixed : kind.IsFixed) :
    Advances (expect kind) state (fun read token _ => read = [token] ∧ token.kind = kind)
      (· = [kind]) := by
  by_cases current : state.cursor.currentKind = kind
  · refine .take ready (current ▸ fixed.ne_eof) (fun s same => ?_) ⟨rfl, current⟩
    simp only [expect, (check_of_current fixed same).mpr current, same, if_true]
    rfl
  · refine .stop ⟨.expectedToken kind state.cursor.currentKind, state.cursor.currentSpan⟩ ready
      (fun s same => ?_) (.token (by simp)) ⟨_, rfl⟩
    simp only [expect, mt (check_of_current fixed same).mp current, same]
    rfl

theorem expectIdent_advances (ready : state.cursor.Ready) :
    Advances expectIdent state (fun read found _ =>
      ∃ token, read = [token] ∧ token.kind = .ident found.1 ∧ token.span = found.2)
      (· = [.ident ""]) := by
  by_cases current : ∃ name, state.cursor.current.kind = .ident name
  · obtain ⟨name, current⟩ := current
    have run (s : ParseState) (same : s.cursor.current = state.cursor.current) :
        expectIdent s = .done (name, state.cursor.current.span) s.next := by
      simp only [expectIdent, same, current]
      rfl
    exact .take ready (fun same => by cases current.symm.trans same) run ⟨_, rfl, current, rfl⟩
  · refine .stop ⟨.expectedIdentifier state.cursor.currentKind, state.cursor.currentSpan⟩ ready
      (fun s same => ?_) (.token (by simp)) ⟨_, rfl⟩
    unfold expectIdent
    rw [same]
    dsimp only
    split
    · rename_i name found
      exact (current ⟨name, found⟩).elim
    · rfl

end Tokens

section Steps

theorem Advances.bind_advance {next : Token → Parser β} (ready : state.cursor.Ready)
    (inner : state.cursor.currentKind ≠ .eof)
    (later : ∀ after : ParseState, after.cursor.Ready →
      Advances (next state.cursor.current) after (fun more => post (state.cursor.current :: more))
        fun more => goal (state.cursor.currentKind :: more)) :
    Advances (advance >>= next) state post goal := by
  refine (advance_advances ready inner).bind (fun _ => False.elim) fun read token after ready done => ?_
  obtain ⟨rfl, rfl⟩ := done
  exact later after ready

theorem Advances.bind_eat {next : Bool → Parser β} (fixed : kind.IsFixed) (ready : state.cursor.Ready)
    (eaten : ∀ token (after : ParseState), after.cursor.Ready → token.kind = kind →
      Advances (next true) after (fun more => post (token :: more)) fun more => goal (kind :: more))
    (missing : Advances (next false) state post goal) :
    Advances (eat kind >>= next) state post goal := by
  refine (eat_advances ready fixed).bind (fun _ => False.elim) fun read hit after ready done => ?_
  obtain ⟨rfl, token, rfl, rfl⟩ | ⟨rfl, rfl, rfl⟩ := done
  · exact eaten token after ready rfl
  · exact missing

theorem Advances.bind_expect {next : Token → Parser β} (fixed : kind.IsFixed)
    (ready : state.cursor.Ready) (viable : ∃ more, goal (kind :: more))
    (later : ∀ token (after : ParseState), after.cursor.Ready → token.kind = kind →
      Advances (next token) after (fun more => post (token :: more)) fun more => goal (kind :: more)) :
    Advances (expect kind >>= next) state post goal := by
  refine (expect_advances ready fixed).bind (fun tokens same => ?_) fun read token after ready done => ?_
  · subst same
    exact viable
  · obtain ⟨rfl, rfl⟩ := done
    exact later token after ready rfl

theorem Advances.bind_ident {next : String × Span → Parser β} (ready : state.cursor.Ready)
    (viable : ∃ more, goal (.ident "" :: more))
    (later : ∀ name token (after : ParseState), after.cursor.Ready → token.kind = .ident name →
      Advances (next (name, token.span)) after (fun more => post (token :: more))
        fun more => goal (.ident name :: more)) :
    Advances (expectIdent >>= next) state post goal := by
  refine (expectIdent_advances ready).bind (fun tokens same => ?_) fun read found after ready done => ?_
  · subst same
    exact viable
  · obtain ⟨token, rfl, named, placed⟩ := done
    obtain ⟨name, span⟩ := found
    obtain rfl : token.span = span := placed
    have advances := later name token after ready named
    rw [← named] at advances
    exact advances

end Steps

end Parser

end Lu
