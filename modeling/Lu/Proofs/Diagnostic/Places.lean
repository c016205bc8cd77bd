import Lu.Proofs.Check.Places
import Lu.Proofs.Parse.Places
import Lu.Proofs.Run.Finishing
import Lu.Proofs.Source
import Lu.Proofs.Source.Lines
import Lu.Proofs.Token.Found
import Lu.Proofs.Token.Places

namespace Lu

/-!
What is wrong with a program is shown in its text. Each part of the interpreter reports errors at
places that the part before it made out, and the first of them, the lexer, at pieces of the text.
-/

namespace ProgramError

def span : ProgramError → Span
  | .lex e => e.span
  | .parse e => e.span
  | .check e => e.span
  | .run e => e.span

/-- The calls around an error, the innermost first. There are none before the program runs. -/
def backtrace : ProgramError → List CallFrame
  | .run e => e.backtrace
  | .lex _ | .parse _ | .check _ => []

/-- The error and the calls around it are at places of a certain kind. -/
structure PointsTo (place : Span → Prop) (e : ProgramError) : Prop where
  here : place e.span
  calls : ∀ frame ∈ e.backtrace, place frame.span

end ProgramError

section Labels

/-- The diagnostic has one primary label, on the span, and others on the spans of a list. -/
def Diagnostic.Marks (d : Diagnostic) (span : Span) (others : List Span) : Prop :=
  d.labels.map (fun label => (label.isPrimary, label.span)) =
    (true, span) :: others.map fun other => (false, other)

variable {d : Diagnostic} {span : Span} {others : List Span}

namespace Diagnostic

theorem Marks.primary (marks : d.Marks span others) :
    (d.labels.filter (·.isPrimary)).map (·.span) = [span] := by
  have pairs : (d.labels.filter (·.isPrimary)).map (·.span) =
      ((d.labels.map fun label => (label.isPrimary, label.span)).filter (·.1)).map (·.2) := by
    rw [List.filter_map, List.map_map]
    rfl
  have unmarked : (others.map fun other => (false, other)).filter (·.1) = [] := by
    simp
  rw [pairs, marks, List.filter_cons_of_pos rfl, unmarked]
  rfl

theorem Marks.mem (marks : d.Marks span others) {label : Label} (member : label ∈ d.labels) :
    label.span = span ∨ label.span ∈ others := by
  have listed : (label.isPrimary, label.span) ∈
      (true, span) :: others.map fun other => (false, other) := marks ▸ List.mem_map_of_mem member
  rcases List.mem_cons.mp listed with same | later
  · exact .inl (Prod.mk.inj same).2
  · obtain ⟨other, member, same⟩ := List.mem_map.mp later
    exact .inr ((Prod.mk.inj same).2 ▸ member)

end Diagnostic

/-- What is said beside an error changes none of its labels. -/
theorem RuntimeError.diagnostic_marks (e : RuntimeError) :
    e.diagnostic.Marks e.span ((e.backtrace.take shownCalls).map (·.span)) := by
  have labels : e.diagnostic.labels =
      (Diagnostic.errorAt e.kind.code e.kind.message e.span).labels ++
        (e.backtrace.take shownCalls).map fun frame =>
          (⟨false, frame.span, s!"in this call to `{frame.function}`"⟩ : Label) := by
    unfold diagnostic
    dsimp only
    split <;> split <;> rfl
  rw [Diagnostic.Marks, labels, List.map_append, List.map_map, List.map_map]
  rfl

/-- A diagnostic marks the place of its error, and beside it the innermost calls. -/
theorem ProgramError.diagnostic_marks (e : ProgramError) :
    e.diagnostic.Marks e.span ((e.backtrace.take RuntimeError.shownCalls).map (·.span)) := by
  cases e with
  | lex e =>
    obtain ⟨kind, span⟩ := e
    cases kind <;> rfl
  | parse e =>
    obtain ⟨kind, span⟩ := e
    cases kind <;> rfl
  | check e =>
    obtain ⟨kind, span⟩ := e
    cases kind <;> rfl
  | run e => exact e.diagnostic_marks

end Labels

/-- The label marks whole characters of the text, in lines that the text has. -/
structure Label.InText (text : List Char) (label : Label) : Prop where
  span : label.span.InText text
  firstLine : 1 ≤ (LineTable.ofChars text).lineAt label.span.start
  lineOrder : (LineTable.ofChars text).lineAt label.span.start ≤
    (LineTable.ofChars text).lineAt label.span.stop
  lastLine : (LineTable.ofChars text).lineAt label.span.stop ≤ (LineTable.ofChars text).lineCount

/-- Where there is something else than newlines, the lines can be numbered. -/
theorem Span.InText.label {text : List Char} (short : byteLength text ≤ lastOffset)
    (other : ∃ c ∈ text, c ≠ '\n') {label : Label} (inText : label.span.InText text) :
    label.InText text where
  span := inText
  firstLine := by
    rw [LineTable.lineAt_eq short other]
    exact Nat.le_add_left ..
  lineOrder := by
    rw [LineTable.lineAt_eq short other, LineTable.lineAt_eq short other]
    exact Nat.succ_le_succ (LineTable.lineIndex_mono text inText.ordered)
  lastLine := LineTable.lineAt_le_lineCount text label.span.stop

/-- If the error and the calls around it point into the text, so do all labels. -/
theorem ProgramError.PointsTo.label {text : List Char} (short : byteLength text ≤ Span.lastOffset)
    (other : ∃ c ∈ text, c ≠ '\n') {e : ProgramError} (points : e.PointsTo (Span.InText text))
    {label : Label} (member : label ∈ e.diagnostic.labels) : label.InText text := by
  refine Span.InText.label short other ?_
  rcases e.diagnostic_marks.mem member with same | shown
  · rw [same]
    exact points.here
  · obtain ⟨frame, taken, same⟩ := List.mem_map.mp shown
    rw [← same]
    exact points.calls frame (List.mem_of_mem_take taken)

section Phases

variable {α : Type}

/-- The attempt gives a result of which the condition holds, or an error at one of the places. -/
def Stop.Points (place : Span → Prop) (post : α → Prop) : Except Stop α → Prop
  | .ok value => post value
  | .error (.error e) => e.PointsTo place
  | .error (.fault _) | .error .outOfFuel => True

theorem Stop.Points.bind {β : Type} {place : Span → Prop} {mid : α → Prop} {goal : β → Prop}
    {attempt : Except Stop α} {next : α → Except Stop β} (first : Points place mid attempt)
    (rest : ∀ value, mid value → Points place goal (next value)) :
    Points place goal (attempt >>= next) := by
  cases attempt with
  | ok value => exact rest value first
  | error stop => cases stop <;> exact first

theorem Span.closed_inText (text : List Char) : Span.Closed (Span.InText text) :=
  ⟨.nowhere text, .merge⟩

variable {source : String} (short : byteLength source.toList ≤ Span.lastOffset)
include short

theorem Source.tokens_points : Stop.Points (Span.InText source.toList)
    (fun found => ∀ token ∈ found, token.span.InText source.toList) (tokens source) := by
  obtain ⟨atTokens, atError⟩ := lex_inText short
  unfold tokens
  cases ran : lex source with
  | ok found => exact atTokens found ran
  | error e => exact ⟨atError e ran, nofun⟩

theorem Source.program_points : Stop.Points (Span.InText source.toList)
    (Program.Within (Span.InText source.toList)) (program source) := by
  refine (tokens_points short).bind fun found atTokens => ?_
  obtain ⟨atProgram, atError⟩ := parse?_points (Span.closed_inText source.toList) atTokens
  split
  · rename_i read ran
    exact atProgram read ran
  · rename_i e ran
    exact ⟨atError e ran, nofun⟩
  · trivial

theorem Source.analysed_points (steps : List AnalysisStep) :
    Stop.Points (Span.InText source.toList) (Program.Within (Span.InText source.toList))
      (analysed steps source) := by
  refine (program_points short).bind fun read within => ?_
  have points := Program.analyse_points steps within
  split
  · rename_i found ran
    rw [ran] at points
    exact points
  · rename_i e ran
    rw [ran] at points
    exact ⟨points, nofun⟩
  · trivial

omit short in
/-- Once a program runs, it fails by runtime errors only. -/
theorem Machine.run_error {machine : Machine} {fuel : Nat} {program : Program} {e : ProgramError}
    (failed : (machine.run fuel program).1 = .error (.error e)) : ∃ cause, e = .run cause := by
  unfold run at failed
  split at failed
  · cases failed
  · cases failed
    exact ⟨_, rfl⟩
  · cases failed
  · cases failed

/-- Whatever has run on a machine before, an error of the next source text points into that text. -/
theorem Machine.Idle.runSource_points {limit : Nat} {machine : Machine} (idle : machine.Idle limit)
    (fuel : Nat) (steps : List AnalysisStep) :
    Stop.Points (Span.InText source.toList) (fun _ => True)
      (machine.runSource fuel steps source).1 := by
  have atProgram := Source.analysed_points short steps
  unfold runSource
  generalize Source.analysed steps source = analysed at atProgram ⊢
  cases analysed with
  | error stop => cases stop <;> exact atProgram
  | ok program =>
    dsimp only
    cases ran : (machine.run fuel program).1 with
    | ok value => trivial
    | error stop =>
      cases stop with
      | fault | outOfFuel => trivial
      | error e =>
        obtain ⟨e, rfl⟩ := Machine.run_error ran
        obtain ⟨here, calls⟩ := idle.run_points atProgram ran
        exact ⟨here, calls⟩

end Phases

section Newlines

variable {source : String} (only : ∀ c ∈ source.toList, c = '\n')
include only

theorem lex_newlines : lex source = .ok [endToken (byteLength source.toList)] := by
  have lexes : Lexes 0 source.toList [] (byteLength source.toList) [] := by
    cases text : source.toList with
    | nil => exact .here
    | cons c rest =>
      have spaces : ∀ d ∈ c :: rest, isSpace d = true := by
        intro d member
        rw [only d (text ▸ member)]
        rfl
      obtain ⟨first, others⟩ := List.forall_mem_cons.mp spaces
      have found : Found .gap (c :: rest) [] :=
        .spaces (Pattern.mem_spaces.mpr ⟨c, rest, first, others, rfl⟩) nofun
      have lexes : Lexes 0 ((c :: rest) ++ []) [] _ [] := .gap (found.leads (by simp)) .here
      rwa [List.append_nil, Nat.zero_add] at lexes
  exact lex_eq_ok.mpr ⟨[], _, lexes, rfl⟩

/-- A text of newlines only is the empty program. -/
theorem execute_newlines (fuel limit : Nat) (env : Environment) :
    (execute fuel limit source env).1 = .ok .void := by
  generalize atEnd : (endToken (byteLength source.toList)).span = span
  have tokens : Source.tokens source = .ok [⟨.eof, span⟩] := by
    rw [Source.tokens, lex_newlines only, ← atEnd]
    rfl
  have analysed : Source.analysed AnalysisStep.all source = .ok ⟨[], span.merge span⟩ := by
    rw [Source.analysed, Source.program, tokens]
    rfl
  rw [execute, Machine.runSource, analysed]
  rfl

end Newlines

/-- If all offsets into the source text fit in 32 bits, the diagnostic of an error has one primary
label, on the place of the error, and all its labels, those of the calls around the error too, cover
whole characters of the source text and lie in its lines. -/
theorem every_error_points_into_source {source : String}
    (short : byteLength source.toList ≤ Span.lastOffset) {fuel limit : Nat} {env after : Environment} {e : ProgramError}
    (failed : execute fuel limit source env = (.error (.error e), after)) :
    (e.diagnostic.labels.filter (·.isPrimary)).map (·.span) = [e.span] ∧
      ∀ label ∈ e.diagnostic.labels, label.InText source.toList := by
  have points := (Machine.fresh_idle limit env).runSource_points short fuel AnalysisStep.all
  rw [show ((Machine.fresh limit env).runSource fuel AnalysisStep.all source).1 = .error (.error e)
    from congrArg Prod.fst failed] at points
  have other : ∃ c ∈ source.toList, c ≠ '\n' := by
    by_contra none
    push Not at none
    have empty := execute_newlines none fuel limit env
    rw [failed] at empty
    cases empty
  exact ⟨e.diagnostic_marks.primary, fun label member => points.label short other member⟩

/-- The error that a run ends in, if it ends in one. -/
def failure? : Except Stop Value → Option ProgramError
  | .error (.error e) => some e
  | _ => none

theorem failure?_eq_some {result : Except Stop Value} {e : ProgramError}
    (found : failure? result = some e) : result = .error (.error e) := by
  unfold failure? at found
  split at found
  · cases found
    rfl
  · cases found

def sharingSource : String :=
  "fn share(n: int): int \x7b return 100 / n; \x7d prints(\"½\"); print(share(0));"

/-- A division by zero inside a call: one label is on the division and one on the call, which comes
after a character of two bytes. -/
theorem sharing_points_into_source : ∃ e after,
    execute 100 10 sharingSource {} = (.error (.error e), after) ∧
      e.diagnostic.labels.map (fun label => (label.isPrimary, label.span)) =
        [(true, ⟨31, 38⟩), (false, ⟨62, 70⟩)] ∧
      (e.diagnostic.labels.filter (·.isPrimary)).map (·.span) = [e.span] ∧
      ∀ label ∈ e.diagnostic.labels, label.InText sharingSource.toList := by
  have fails : ((failure? (execute 100 10 sharingSource {}).1).any fun e =>
      e.diagnostic.labels.map (fun label => (label.isPrimary, label.span)) ==
        [(true, ⟨31, 38⟩), (false, ⟨62, 70⟩)]) = true := by decide +kernel
  obtain ⟨e, failed, labels⟩ := (Option.any_eq_true ..).mp fails
  have ended : execute 100 10 sharingSource {} =
      (.error (.error e), (execute 100 10 sharingSource {}).2) :=
    Prod.ext (failure?_eq_some failed) rfl
  have short : byteLength sharingSource.toList ≤ Span.lastOffset := by decide +kernel
  exact ⟨e, _, ended, beq_iff_eq.mp labels, every_error_points_into_source short ended⟩

end Lu
