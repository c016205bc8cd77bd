import Lu.Proofs.Parse.Fuel
import Lu.Proofs.Parse.Moving
import Lu.Proofs.Parse.Soundness

namespace Lu

/-!
On tokens that end in their only end of file, a parser that succeeds has read at least one token and has
stopped in front of the end of file, and with enough fuel every parser comes to an end.
-/

namespace Parser

variable {α : Type} {state : ParseState} {tokens : List Token}

/-- From some amount on, all fuel gives the same answer. -/
def Stops (p : Nat → Parser α) (state : ParseState) : Prop :=
  ∃ enough result, result ≠ .outOfFuel ∧ ∀ fuel ≥ enough, p fuel state = result

/-- The second state stands behind at least one token more, but not behind the last one, in the same
tokens. -/
structure StepsTo (state after : ParseState) : Prop where
  tokens : after.cursor.tokens = state.cursor.tokens
  forward : state.cursor.position < after.cursor.position
  inside : after.cursor.position < state.cursor.tokens.length

/-- The parser comes to an end, and where it succeeds it has moved on. -/
structure Productive (p : Nat → Parser α) (state : ParseState) : Prop where
  stops : Stops p state
  moves {fuel value after} : p fuel state = .done value after → StepsTo state after

/-- The loops of the parser come to an end. -/
structure LoopsStop (state : ParseState) : Prop where
  blocks {before} : Stops (statements · before) state
  operators {index level left} : binaryLevels[index]? = some level →
    Stops (operatorTail · level (binaryLevels.drop (index + 1)) left) state
  arguments {before} : Stops (arguments · before) state
  parameters {before} : Stops (parameters · before) state
  program {before} : Stops (programStatements · before) state

theorem Stops.of_refines {p : Nat → Parser α} (refines : ∀ fuel, Refines (p fuel) (p (fuel + 1)))
    (enough : Nat) (lasts : p enough state ≠ .outOfFuel) : Stops p state := by
  refine ⟨enough, p enough state, lasts, fun fuel least => ?_⟩
  have grows : Refines (p enough) (p fuel) := by
    induction least with
    | refl => exact .refl _
    | step _ ih => exact ih.trans (refines _)
  exact ((grows state).resolve_left lasts).symm

section Reads

variable {short : Prop} {post : List TokenKind → α → ParseState → Prop} {p : Parser α}

theorem Reads.lasts (reads : Reads p state short post) (enough : ¬ short) :
    p state ≠ .outOfFuel := by
  intro ranOut
  unfold Reads at reads
  rw [ranOut] at reads
  exact enough reads

/-- What has been read moves the cursor on, and the end of file is not read. -/
theorem Reads.steps {value : α} {after : ParseState} (reads : Reads p state short post)
    (moves : Moves p state) (run : p state = .done value after)
    (some : ∀ read, post read value after → 0 < read.length) : StepsTo state after := by
  unfold Reads at reads
  rw [run] at reads
  obtain ⟨kinds, shape, ends, done⟩ := reads
  obtain ⟨read, reached, -⟩ := moves.reaches run
  have same : kinds.length = read.length := by
    have total := congrArg List.length shape
    rw [ParseState.ahead, reached.ahead] at total
    simpa [ParseState.ahead] using total.symm
  have left : 0 < after.cursor.ahead.length := by
    obtain ⟨kind, rest, ahead⟩ := ends.eq_cons
    have total := congrArg List.length ahead
    rw [ParseState.ahead, List.length_map] at total
    exact total ▸ Nat.succ_pos _
  have positive := some kinds done
  refine ⟨reached.tokens_eq, ?_, ?_⟩
  · rw [reached.position_eq]
    omega
  · rw [← reached.tokens_eq, Cursor.tokens, List.length_append, List.length_reverse, Cursor.position]
    omega

end Reads

/-- The tokens to come end as all do. -/
theorem ahead_ends (ends : EndsInEof (state.cursor.tokens.map Token.kind))
    (left : state.cursor.position < state.cursor.tokens.length) : EndsInEof state.ahead := by
  obtain ⟨body, shape, none⟩ := ends
  rw [Cursor.tokens, List.length_append, List.length_reverse, Cursor.position] at left
  obtain ⟨init, last, ahead⟩ := state.cursor.ahead.eq_nil_or_concat'.resolve_left
    (List.ne_nil_of_length_pos (by omega))
  rw [Cursor.tokens, ahead, ← List.append_assoc, List.map_append] at shape
  obtain ⟨rfl, isEnd⟩ := List.append_inj' shape rfl
  refine ⟨init.map Token.kind, ?_, fun member => none ?_⟩
  · rw [ParseState.ahead, ahead, List.map_append, isEnd]
  · rw [List.map_append]
    exact List.mem_append_right _ member

section Places

variable (ends : EndsInEof state.ahead)
include ends

theorem expression_productive : Productive expression state where
  stops := by
    refine .of_refines (fun fuel => (exprsRefineAt fuel).expression) (16 * state.left + 12) ?_
    exact ((exprsReadAt _).expression ends).lasts (by omega)
  moves := fun run => ((exprsReadAt _).expression ends).steps (exprsMoveAt _).expression run
    fun read done => done.1.length_pos

theorem nameOrCall_productive : Productive nameOrCall state where
  stops := by
    refine .of_refines (fun fuel => (exprsRefineAt fuel).nameOrCall) (16 * state.left + 1) ?_
    exact ((exprsReadAt _).nameOrCall ends).lasts (by omega)
  moves := fun run => ((exprsReadAt _).nameOrCall ends).steps (exprsMoveAt _).nameOrCall run
    fun read done => done.1.length_pos

theorem statement_productive : Productive statement state where
  stops := by
    refine .of_refines (fun fuel => (stmtsRefineAt fuel).statement) (16 * state.left + 13) ?_
    exact ((stmtsReadAt _).statement ends).lasts (by omega)
  moves := fun run => ((stmtsReadAt _).statement ends).steps (stmtsMoveAt _).statement run
    fun read done => done.1.length_pos

theorem block_productive : Productive block state where
  stops := by
    refine .of_refines (fun fuel => (stmtsRefineAt fuel).block) (16 * state.left + 1) ?_
    exact ((stmtsReadAt _).block ends).lasts (by omega)
  moves := fun run => ((stmtsReadAt _).block ends).steps (stmtsMoveAt _).block run
    fun read done => by
      obtain ⟨rest, rfl⟩ := done.1.begins
      exact Nat.succ_pos _

theorem loops_stop : LoopsStop state where
  blocks := by
    refine .of_refines (fun fuel => (stmtsRefineAt fuel).statements) (16 * state.left + 14) ?_
    exact ((stmtsReadAt _).statements ends).lasts (by omega)
  operators := fun atLevel => by
    refine .of_refines (fun fuel => (exprsRefineAt fuel).operatorTail) (16 * state.left + 1) ?_
    exact ((exprsReadAt _).operatorTail ends atLevel).lasts (by omega)
  arguments := by
    refine .of_refines (fun fuel => (exprsRefineAt fuel).arguments) (16 * state.left + 13) ?_
    exact ((exprsReadAt _).arguments ends).lasts (by omega)
  parameters := by
    refine .of_refines (fun fuel => parameters_refines fuel _) (16 * state.left + 1) ?_
    exact (parameters_reads _ _ ends).lasts (by omega)
  program := by
    refine .of_refines (fun fuel => programStatements_refines fuel _) (16 * state.left + 14) ?_
    exact (programStatements_reads _ _ ends).lasts (by omega)

theorem program_stops : Stops program state := by
  refine .of_refines (fun fuel => program_refines fuel.le_succ) (16 * state.left + 14) ?_
  exact (program_reads _ ends).lasts (by omega)

/-- A program is read up to the end of file, which is the token that the cursor stands at then. -/
theorem program_ends {fuel : Nat} {program : Program} {last : ParseState}
    (run : Parser.program fuel state = .done program last) :
    last.cursor.tokens = state.cursor.tokens ∧
      last.cursor.position + 1 = state.cursor.tokens.length ∧ last.cursor.currentKind = .eof := by
  have reads := program_reads fuel ends
  unfold Reads at reads
  rw [run] at reads
  obtain ⟨-, -, -, -, atEnd, -⟩ := reads
  obtain ⟨read, reached, -⟩ := (program_moves fuel).reaches run
  have one := congrArg List.length atEnd
  rw [ParseState.ahead, List.length_map] at one
  refine ⟨reached.tokens_eq, ?_, ParseState.currentKind_eq atEnd⟩
  rw [← reached.tokens_eq, Cursor.tokens, List.length_append, List.length_reverse, one]
  rfl

end Places

end Parser

/-- On tokens that end in their only end of file the parser makes progress and comes to an end.
Wherever it stands in front of that end, a statement, an expression, a block and a name or call read at
least one token and never the end of file, and no loop runs for ever. A program is read from the start
up to the end of file. -/
theorem parsing_progresses_and_stops {tokens : List Token}
    (ends : EndsInEof (tokens.map Token.kind)) :
    (∀ state : ParseState, state.cursor.tokens = tokens → state.cursor.position < tokens.length →
      Parser.Productive Parser.statement state ∧ Parser.Productive Parser.expression state ∧
      Parser.Productive Parser.block state ∧ Parser.Productive Parser.nameOrCall state ∧
      Parser.LoopsStop state) ∧
    Parser.Stops Parser.program ⟨Cursor.ofTokens tokens, 0⟩ ∧
    (∃ result, parse? tokens = some result) ∧
    ∀ fuel program last, Parser.program fuel ⟨Cursor.ofTokens tokens, 0⟩ = .done program last →
      last.cursor.tokens = tokens ∧ last.cursor.position + 1 = tokens.length ∧
        last.cursor.currentKind = .eof := by
  have start : EndsInEof (ParseState.ahead ⟨Cursor.ofTokens tokens, 0⟩) := ends
  refine ⟨fun state here left => ?_, Parser.program_stops start, ?_, fun fuel program last run => ?_⟩
  · subst here
    have ahead := Parser.ahead_ends ends left
    exact ⟨Parser.statement_productive ahead, Parser.expression_productive ahead,
      Parser.block_productive ahead, Parser.nameOrCall_productive ahead, Parser.loops_stop ahead⟩
  · obtain ⟨result, answer, -⟩ := parse?_reads ends
    exact ⟨result, answer⟩
  · exact Parser.program_ends start run

/-- The tokens of a call in a block, which break off in front of the first argument. -/
def truncatedCall : List Token :=
  [⟨.mark .leftBrace, ⟨0, 1⟩⟩, ⟨.ident "f", ⟨2, 3⟩⟩, ⟨.mark .leftParen, ⟨3, 4⟩⟩, ⟨.eof, ⟨4, 4⟩⟩]

/-- From the name on too, the call is read or given up with an error, and so is the whole. -/
theorem truncated_call_stops :
    Parser.Productive Parser.nameOrCall ⟨⟨truncatedCall.take 1, truncatedCall.drop 1⟩, 0⟩ ∧
      Parser.Stops Parser.program ⟨Cursor.ofTokens truncatedCall, 0⟩ ∧
      ∃ result, parse? truncatedCall = some result := by
  have ends : EndsInEof (truncatedCall.map Token.kind) :=
    ⟨[.mark .leftBrace, .ident "f", .mark .leftParen], rfl, by simp⟩
  obtain ⟨places, stops, answered, -⟩ := parsing_progresses_and_stops ends
  exact ⟨(places ⟨⟨truncatedCall.take 1, truncatedCall.drop 1⟩, 0⟩ rfl (by decide)).2.2.2.1, stops,
    answered⟩

end Lu
