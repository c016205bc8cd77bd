import Lu.Proofs.Run.Alike
import Lu.Proofs.Run.Growth
import Lu.Proofs.Tree.Places
import Lu.Proofs.Tree.Rearranged

namespace Lu

/-!
Two runs side by side. They go the same way, step by step, until the first one runs out of fuel or
ends in an error after which nothing more is asked of the second one.
-/

/-- What the two runs may differ in. -/
structure Comparison where
  /-- Where the nodes of the programs stand. -/
  Place : Span → Prop
  /-- In the second program neighbouring functions may have changed places. -/
  swaps : Prop
  /-- What the second run finds printed, which the first one does not. -/
  printed : Array String
  limit : Nat
  limit' : Nat
  /-- How much more fuel the second run has. -/
  spare : Nat
  /-- The first run is not followed beyond these errors. -/
  GivesUp : RuntimeErrorKind → Prop
  limit_le : limit ≤ limit'
  overflow : limit = limit' ∨ GivesUp (.stackOverflow limit)
  duplicate : swaps → ∀ name, GivesUp (.duplicateDefinition name)

namespace CallStack

theorem depth_le_of_push {stack pushed : CallStack} {frame : CallFrame}
    (entered : stack.push frame = .ok pushed) :
    pushed.frames = frame :: stack.frames ∧ pushed.limit = stack.limit ∧
      stack.frames.length < stack.limit := by
  obtain ⟨frames, depth, limit, depth_eq⟩ := stack
  unfold push at entered
  split at entered
  · cases entered
  · cases entered
    exact ⟨rfl, rfl, by simp only at *; omega⟩

theorem push_eq_error {stack : CallStack} {frame : CallFrame} {kind : RuntimeErrorKind}
    (full : stack.push frame = .error kind) :
    kind = .stackOverflow stack.limit ∧ stack.limit ≤ stack.frames.length := by
  obtain ⟨frames, depth, limit, depth_eq⟩ := stack
  unfold push at full
  split at full
  · cases full
    exact ⟨rfl, by simp only at *; omega⟩
  · cases full

end CallStack

namespace RuntimeError

variable (e : RuntimeError) (active : List CallFrame)

@[simp] theorem withBacktrace_kind : (e.withBacktrace active).kind = e.kind := by
  unfold withBacktrace
  split <;> rfl

@[simp] theorem withBacktrace_span : (e.withBacktrace active).span = e.span := by
  unfold withBacktrace
  split <;> rfl

theorem withBacktrace_nil : e.withBacktrace [] = e := by
  obtain ⟨kind, span, backtrace⟩ := e
  cases backtrace <;> rfl

/-- With the calls that are active the error has its whole backtrace; that the innermost call is over
does not change it any more. -/
theorem withBacktrace_pop (calls : CallStack) :
    (e.withBacktrace calls.backtrace).withBacktrace calls.pop.backtrace =
      e.withBacktrace calls.backtrace := by
  obtain ⟨kind, span, backtrace⟩ := e
  obtain ⟨frames, depth, limit, depth_eq⟩ := calls
  cases backtrace with
  | cons frame rest => rfl
  | nil => cases frames <;> rfl

end RuntimeError

namespace Comparison

variable (c : Comparison)

structure Relates (f f' : FunctionDecl) : Prop where
  rearranged : f.Rearranged c.swaps f'
  within : f.Within c.Place

/-- The two machines are at the same point of their runs. -/
structure Alike (m m' : Machine) : Prop where
  context : m.context.Alike c.Relates m'.context
  operands : m'.operands = m.operands
  frames : m'.calls.frames = m.calls.frames
  limit : m.calls.limit = c.limit
  limit' : m'.calls.limit = c.limit'
  depth : m.calls.frames.length ≤ c.limit
  places : ∀ frame ∈ m.calls.frames, c.Place frame.span
  input : m'.env.input = m.env.input
  output : m'.env.output = c.printed ++ m.env.output

/-- The error, with the active calls, points into the program. If it is that there are too many calls,
then these are as many as there may be. -/
structure Proper (e : RuntimeError) (calls : CallStack) : Prop where
  span : c.Place e.span
  backtrace : ∀ frame ∈ (e.withBacktrace calls.backtrace).backtrace, c.Place frame.span
  overflow : ∀ limit, e.kind = .stackOverflow limit →
    limit = c.limit ∧ (e.withBacktrace calls.backtrace).backtrace.length = c.limit

/-- The second run has printed what was printed before it and in the first run. -/
def Follows (m after : Machine) : Prop :=
  (c.printed ++ m.env.output).toList <+: after.env.output.toList

inductive Ends {α : Type} : Outcome α → Outcome α → Prop
  | done {value m m'} : c.Alike m m' → Ends (.done value m) (.done value m')
  | failed {e m m'} : c.Proper e m.calls → c.Alike m m' → Ends (.failed e m) (.failed e m')
  | faulted {f m m'} : c.Alike m m' → Ends (.faulted f m) (.faulted f m')
  | outOfFuel : Ends .outOfFuel .outOfFuel
  | gaveUp {e m outcome} : c.GivesUp e.kind → c.Proper e m.calls → outcome.Leaves (c.Follows m) →
      Ends (.failed e m) outcome
  | starved {outcome} : 0 < c.spare → Ends .outOfFuel outcome

/-- Started alike, the two pieces go the same way. -/
structure Couples {α : Type} (piece piece' : Run α) : Prop where
  ends : ∀ {m m'}, c.Alike m m' → c.Ends (piece m) (piece' m')
  advances : piece'.Advances

variable {c} {α β : Type}

theorem Alike.follows {m m' after : Machine} (alike : c.Alike m m') (leads : m'.Leads after) :
    c.Follows m after := by
  unfold Follows
  rw [← alike.output]
  exact leads.env.output

/-- After an error that ends the comparison the second run may do what it likes. -/
theorem Ends.giveUp {e : RuntimeError} {m m' : Machine} {piece' : Run α} (gives : c.GivesUp e.kind)
    (proper : c.Proper e m.calls) (alike : c.Alike m m') (advances : piece'.Advances) :
    c.Ends (.failed e m) (piece' m') :=
  .gaveUp gives proper ((advances m').mono fun _ => alike.follows)

theorem Proper.ofAlike {kind : RuntimeErrorKind} {span : Span} {m m' : Machine}
    (alike : c.Alike m m') (place : c.Place span) (calm : ∀ limit, kind ≠ .stackOverflow limit) :
    c.Proper { kind, span } m.calls :=
  ⟨place, alike.places, fun limit overflow => (calm limit overflow).elim⟩

theorem Proper.leave {e : RuntimeError} {calls : CallStack} (proper : c.Proper e calls) :
    c.Proper (e.withBacktrace calls.backtrace) calls.pop := by
  refine ⟨?_, ?_, ?_⟩
  · rw [e.withBacktrace_span]
    exact proper.span
  · rw [e.withBacktrace_pop]
    exact proper.backtrace
  · rw [e.withBacktrace_pop, e.withBacktrace_kind]
    exact proper.overflow

theorem Alike.withContext {m m' : Machine} {a b : Context} (alike : c.Alike m m')
    (contexts : a.Alike c.Relates b) :
    c.Alike { m with context := a } { m' with context := b } :=
  { alike with context := contexts }

theorem Alike.withOperands {m m' : Machine} (alike : c.Alike m m') (operands : List Value) :
    c.Alike { m with operands } { m' with operands } :=
  { alike with operands := rfl }

theorem Alike.print {m m' : Machine} (alike : c.Alike m m') (line : String) :
    c.Alike { m with env := m.env.print line } { m' with env := m'.env.print line } := by
  refine { alike with output := ?_ }
  simp only [Environment.print, alike.output, Array.push_eq_append, Array.append_assoc]

/-- The innermost call is over. -/
theorem Alike.pop {m m' : Machine} (alike : c.Alike m m') :
    c.Alike { m with calls := m.calls.pop } { m' with calls := m'.calls.pop } := by
  refine { alike with frames := ?_, depth := ?_, places := ?_ }
  · simp only [CallStack.pop, alike.frames]
  · have depth := alike.depth
    simp only [CallStack.pop, List.length_tail]
    omega
  · exact fun frame member => alike.places frame (List.mem_of_mem_tail member)

/-- The machines in the call that both have entered. -/
theorem Alike.enter {m m' : Machine} {calls calls' : CallStack} {function : String} {span : Span}
    (alike : c.Alike m m') (place : c.Place span)
    (entered : m.calls.push ⟨function, span⟩ = .ok calls)
    (entered' : m'.calls.push ⟨function, span⟩ = .ok calls') :
    c.Alike { m with calls } { m' with calls := calls' } := by
  obtain ⟨frames, limit, free⟩ := CallStack.depth_le_of_push entered
  obtain ⟨frames', limit', -⟩ := CallStack.depth_le_of_push entered'
  rw [alike.limit] at limit free
  refine { alike with
    frames := ?_, limit := limit, limit' := limit'.trans alike.limit', depth := ?_, places := ?_ }
  · rw [frames, frames', alike.frames]
  · rw [frames]
    exact free
  · rw [frames]
    exact List.forall_mem_cons.mpr ⟨place, alike.places⟩

namespace Couples

theorem pure (value : α) : c.Couples (pure value) (pure value) :=
  ⟨.done, Run.pure_advances value⟩

theorem bind {first first' : Run α} {next next' : α → Run β} (atFirst : c.Couples first first')
    (atNext : ∀ value, c.Couples (next value) (next' value)) :
    c.Couples (first >>= next) (first' >>= next') := by
  refine ⟨fun {m m'} alike => ?_, atFirst.advances.bind fun value => (atNext value).advances⟩
  have ends := atFirst.ends alike
  rw [Run.bind_apply, Run.bind_apply]
  generalize first m = outcome, first' m' = outcome' at ends ⊢
  cases ends with
  | done alike => exact (atNext _).ends alike
  | failed proper alike => exact .failed proper alike
  | faulted alike => exact .faulted alike
  | outOfFuel => exact .outOfFuel
  | starved more => exact .starved more
  | gaveUp gives proper follows =>
    refine .gaveUp gives proper ?_
    cases outcome' with
    | done value after =>
      exact ((atNext value).advances after).mono fun _ leads => follows.trans leads.env.output
    | failed | faulted => exact follows
    | outOfFuel => trivial

theorem fail {kind : RuntimeErrorKind} {span : Span} (place : c.Place span)
    (calm : ∀ limit, kind ≠ .stackOverflow limit) :
    c.Couples (Run.fail kind span : Run α) (Run.fail kind span) :=
  ⟨fun alike => .failed (.ofAlike alike place calm) alike, Run.fail_advances kind span⟩

theorem attempt {span : Span} {result : Except RuntimeErrorKind α} (place : c.Place span)
    (calm : NoOverflow result) : c.Couples (Run.attempt span result) (Run.attempt span result) := by
  cases result with
  | ok value => exact pure value
  | error kind => exact fail place fun limit same => calm limit (same ▸ rfl)

theorem attemptFault (result : Except Fault α) :
    c.Couples (Run.attemptFault result) (Run.attemptFault result) := by
  cases result with
  | ok value => exact pure value
  | error f => exact ⟨.faulted, Run.attemptFault_advances _⟩

/-- The second run has no less fuel than the first one, which has none. -/
theorem outOfFuel {piece' : Run α} (advances : piece'.Advances)
    (same : c.spare = 0 → piece' = Run.outOfFuel) : c.Couples Run.outOfFuel piece' := by
  refine ⟨fun {m m'} _ => ?_, advances⟩
  rcases Nat.eq_zero_or_pos c.spare with none | more
  · rw [same none]
    exact .outOfFuel
  · exact .starved more

theorem push (value : Value) : c.Couples (Run.push value) (Run.push value) := by
  refine ⟨fun {m m'} alike => ?_, Run.push_advances value⟩
  have pushed := alike.withOperands (value :: m.operands)
  unfold Run.push
  rw [alike.operands]
  exact .done pushed

theorem pop {span : Span} (place : c.Place span) : c.Couples (Run.pop span) (Run.pop span) := by
  refine ⟨fun {m m'} alike => ?_, Run.pop_advances span⟩
  unfold Run.pop
  rw [alike.operands]
  cases m.operands with
  | nil => exact .failed (.ofAlike alike place nofun) alike
  | cons value rest => exact .done (alike.withOperands rest)

theorem peek {span : Span} (place : c.Place span) : c.Couples (Run.peek span) (Run.peek span) := by
  refine ⟨fun {m m'} alike => ?_, Run.peek_advances span⟩
  unfold Run.peek
  rw [alike.operands]
  cases m.operands with
  | nil => exact .failed (.ofAlike alike place nofun) alike
  | cons value rest => exact .done alike

theorem popMany (count : Nat) {span : Span} (place : c.Place span) :
    c.Couples (Run.popMany count span) (Run.popMany count span) := by
  refine ⟨fun {m m'} alike => ?_, Run.popMany_advances count span⟩
  simp only [Run.popMany, alike.operands]
  split
  · exact .done (alike.withOperands _)
  · exact .failed (.ofAlike alike place (by simp)) alike

/-- A change that carries on what is alike, or fails on both sides. -/
theorem change {span : Span} {action action' : Context.Action} (atomic : Atomic action)
    (atomic' : Atomic action') (kind : RuntimeErrorKind) (place : c.Place span)
    (calm : ∀ limit, kind ≠ .stackOverflow limit)
    (carry : ∀ {a b : Context}, a.Alike c.Relates b →
      (∃ a' b', action.result a = .ok a' ∧ action'.result b = .ok b' ∧ a'.Alike c.Relates b') ∨
        action.result a = .error kind ∧ action'.result b = .error kind) :
    c.Couples (Run.change span action) (Run.change span action') := by
  refine ⟨fun {m m'} alike => ?_, Run.change_advances span action'⟩
  rw [Run.change_eq atomic, Run.change_eq atomic']
  obtain ⟨a, b, atFirst, atSecond, contexts⟩ | ⟨atFirst, atSecond⟩ := carry alike.context
  · rw [atFirst, atSecond]
    exact .done (alike.withContext contexts)
  · rw [atFirst, atSecond]
    exact .failed (.ofAlike alike place calm) alike

theorem defineVariable {span : Span} (place : c.Place span) (name : String) (value : Value) :
    c.Couples (Run.change span (Context.addVariable name value))
      (Run.change span (Context.addVariable name value)) :=
  change (Context.addVariable_atomic _ _) (Context.addVariable_atomic _ _)
    (.duplicateDefinition name) place nofun fun alike => alike.defineVariable name value

theorem assignVariable {span : Span} (place : c.Place span) (name : String) (value : Value) :
    c.Couples (Run.change span (Context.setVariable name value))
      (Run.change span (Context.setVariable name value)) :=
  change (Context.setVariable_atomic _ _) (Context.setVariable_atomic _ _)
    (.undefinedVariable name) place nofun fun alike => alike.assignVariable name value

theorem defineFunction {span : Span} (place : c.Place span) {f f' : FunctionDecl}
    (relates : c.Relates f f') :
    c.Couples (Run.change span (Context.addFunction f)) (Run.change span (Context.addFunction f')) :=
  change (Context.addFunction_atomic f) (Context.addFunction_atomic f') (.duplicateDefinition f.name)
    place nofun fun alike => alike.defineFunction relates.rearranged.id relates.rearranged.name relates

/-- Two functions that have changed places. What comes after them does not know. -/
theorem defineFunctions {f f' g g' : FunctionDecl} {span span' : Span} {next next' : Run α}
    (swaps : c.swaps) (place : c.Place span) (place' : c.Place span') (relatesF : c.Relates f f')
    (relatesG : c.Relates g g') (rest : c.Couples next next') :
    c.Couples
      (Run.change span (Context.addFunction f) >>= fun _ =>
        Run.change span' (Context.addFunction g) >>= fun _ => next)
      (Run.change span' (Context.addFunction g') >>= fun _ =>
        Run.change span (Context.addFunction f') >>= fun _ => next') := by
  have advances := (Run.change_advances span' (Context.addFunction g')).bind fun _ =>
    (Run.change_advances span (Context.addFunction f')).bind fun _ => rest.advances
  refine ⟨fun {m m'} alike => ?_, advances⟩
  have twice (f : FunctionDecl) {context : Context} {kind : RuntimeErrorKind}
      (failed : context.defineFunction f = .error kind) : c.GivesUp kind := by
    rw [Context.defineFunction_eq] at failed
    split at failed
    · cases failed
      exact c.duplicate swaps _
    · cases failed
  have calm (f : FunctionDecl) {context : Context} {kind : RuntimeErrorKind}
      (failed : context.defineFunction f = .error kind) (limit : Nat) :
      kind ≠ .stackOverflow limit := by
    rw [Context.defineFunction_eq] at failed
    split at failed
    · cases failed
      exact nofun
    · cases failed
  cases first : m.context.defineFunction f with
  | error kind =>
    have failed : (Run.change span (Context.addFunction f) >>= fun _ =>
        Run.change span' (Context.addFunction g) >>= fun _ => next) m = .failed { kind, span } m := by
      simp only [Run.bind_apply, Run.addFunction_eq, first]
    rw [failed]
    exact .giveUp (twice f first) (.ofAlike alike place (calm f first)) alike advances
  | ok between =>
    cases second : between.defineFunction g with
    | error kind =>
      have failed : (Run.change span (Context.addFunction f) >>= fun _ =>
          Run.change span' (Context.addFunction g) >>= fun _ => next) m =
            .failed { kind, span := span' } { m with context := between } := by
        simp only [Run.bind_apply, Run.addFunction_eq, first, second]
      rw [failed]
      have proper : c.Proper { kind, span := span' } m.calls :=
        .ofAlike alike place' (calm g second)
      exact .gaveUp (twice g second) proper ((advances m').mono fun _ => alike.follows)
    | ok after =>
      obtain ⟨between', after', first', second', contexts⟩ :=
        alike.context.defineFunctions_swapped relatesF.rearranged.id relatesG.rearranged.id
          relatesF relatesG first second
      have ends := rest.ends (alike.withContext contexts)
      simpa only [Run.bind_apply, Run.addFunction_eq, first, second, first', second'] using ends

theorem truth {span : Span} (place : c.Place span) (value : Value) :
    c.Couples (Run.truth span value) (Run.truth span value) := by
  cases value with
  | int n => exact pure _
  | float | str | void | nil => exact fail place nofun

theorem getValue {span : Span} (place : c.Place span) (name : String) {next next' : Value → Run β}
    (rest : ∀ value, c.Couples (next value) (next' value)) :
    c.Couples (do next (← Run.attempt span ((← Run.context).getValue name)))
      (do next' (← Run.attempt span ((← Run.context).getValue name))) := by
  have advances := Run.context_advances.bind fun context =>
    (Run.attempt_advances span (context.getValue name)).bind fun value => (rest value).advances
  refine ⟨fun {m m'} alike => ?_, advances⟩
  have calm : NoOverflow (m.context.getValue name) := by
    simp only [Context.getValue]
    split
    · exact .ok _
    · exact fun _ same => by cases same
  have ends := ((attempt place calm).bind rest).ends alike
  simpa only [Run.bind_apply, Run.context, alike.context.getValue_eq] using ends

/-- Both runs find the function in the same scope. -/
theorem getFunction {span : Span} (place : c.Place span) (id : Nat) (name : String)
    {next next' : FunctionDecl × Nat → Run β} (advances : ∀ found, (next' found).Advances)
    (rest : ∀ f f' scope, c.Relates f f' → c.Couples (next (f, scope)) (next' (f', scope))) :
    c.Couples (do next (← Run.attempt span ((← Run.context).getFunction id name)))
      (do next' (← Run.attempt span ((← Run.context).getFunction id name))) := by
  refine ⟨fun {m m'} alike => ?_, Run.context_advances.bind fun context =>
    (Run.attempt_advances span (context.getFunction id name)).bind advances⟩
  obtain ⟨f, f', scope, atFirst, atSecond, relates⟩ | ⟨atFirst, atSecond⟩ :=
    alike.context.getFunction id name
  · have ends := (rest f f' scope relates).ends alike
    simpa only [Run.bind_apply, Run.context, Run.attempt, atFirst, atSecond] using ends
  · simp only [Run.bind_apply, Run.context, Run.attempt, atFirst, atSecond]
    exact .failed (.ofAlike alike place nofun) alike

theorem callNative (name : String) (args : List Value) {span : Span} (place : c.Place span) :
    c.Couples (Run.callNative name args span) (Run.callNative name args span) := by
  refine ⟨fun {m m'} alike => ?_, Run.callNative_advances name args span⟩
  rw [Run.callNative_eq, Run.callNative_eq]
  cases Native.ofName? name with
  | none => exact .failed (.ofAlike alike place nofun) alike
  | some native =>
    obtain ⟨effect, calm, uniform⟩ := native.call_uniform args
    simp only [uniform]
    cases effect with
    | given value => exact .done { alike with }
    | printed line => exact .done (alike.print line)
    | stopped stop =>
      cases stop with
      | error kind => exact .failed (.ofAlike alike place calm) alike
      | fault f => exact .faulted alike
    | reading =>
      obtain ⟨context, operands, calls, input, output⟩ := m
      obtain ⟨context', operands', calls', input', output'⟩ := m'
      obtain rfl : input' = input := alike.input
      cases input' with
      | nil => exact .failed (.ofAlike alike place nofun) alike
      | cons line rest => exact .done { alike with input := rfl }

theorem between {piece piece' : Run α} {enter leave enter' leave' : Context → Context}
    (entered : ∀ {a b : Context}, a.Alike c.Relates b → (enter a).Alike c.Relates (enter' b))
    (left : ∀ {a b : Context}, a.Alike c.Relates b → (leave a).Alike c.Relates (leave' b))
    (couples : c.Couples piece piece') :
    c.Couples (Run.between enter leave piece) (Run.between enter' leave' piece') := by
  refine ⟨fun {m m'} alike => ?_, couples.advances.between enter' leave'⟩
  have ends := couples.ends (alike.withContext (entered alike.context))
  unfold Run.between
  generalize piece { m with context := enter m.context } = outcome,
    piece' { m' with context := enter' m'.context } = outcome' at ends ⊢
  cases ends with
  | done alike => exact .done (alike.withContext (left alike.context))
  | failed proper alike => exact .failed proper (alike.withContext (left alike.context))
  | faulted alike => exact .faulted (alike.withContext (left alike.context))
  | outOfFuel => exact .outOfFuel
  | starved more => exact .starved more
  | gaveUp gives proper follows =>
    refine .gaveUp gives proper ?_
    cases outcome' with
    | done | failed | faulted => exact follows
    | outOfFuel => trivial

theorem inScope {piece piece' : Run α} (couples : c.Couples piece piece') :
    c.Couples (Run.inScope piece) (Run.inScope piece') :=
  couples.between Context.Alike.pushScope Context.Alike.popScope

theorem inFrame {piece piece' : Run α} (staticLink : Nat) (couples : c.Couples piece piece') :
    c.Couples (Run.inFrame staticLink piece) (Run.inFrame staticLink piece') :=
  couples.between (·.pushFrame staticLink) Context.Alike.popFrame

theorem inCall {piece piece' : Run α} (function : String) {span : Span} (place : c.Place span)
    (couples : c.Couples piece piece') :
    c.Couples (Run.inCall function span piece) (Run.inCall function span piece') := by
  have advances := couples.advances.inCall function span
  refine ⟨fun {m m'} alike => ?_, advances⟩
  cases entered : m.calls.push ⟨function, span⟩ with
  | error kind =>
    obtain ⟨rfl, full⟩ := CallStack.push_eq_error entered
    rw [alike.limit] at full
    have exhausted : m.calls.frames.length = c.limit := Nat.le_antisymm alike.depth full
    have proper : c.Proper { kind := .stackOverflow m.calls.limit, span } m.calls := by
      refine ⟨place, alike.places, fun limit same => ?_⟩
      cases same
      exact ⟨alike.limit, exhausted⟩
    have failed : Run.inCall function span piece m =
        .failed { kind := .stackOverflow m.calls.limit, span } m := by
      simp only [Run.inCall, entered]
    rw [failed]
    rcases c.overflow with same | gives
    · have failed' : Run.inCall function span piece' m' =
          .failed { kind := .stackOverflow m.calls.limit, span } m' := by
        cases entered' : m'.calls.push ⟨function, span⟩ with
        | ok calls' =>
          obtain ⟨-, -, free⟩ := CallStack.depth_le_of_push entered'
          rw [alike.frames, alike.limit', exhausted, same] at free
          exact (Nat.lt_irrefl _ free).elim
        | error kind' =>
          obtain ⟨rfl, -⟩ := CallStack.push_eq_error entered'
          simp only [Run.inCall, entered', alike.limit, alike.limit', same]
      rw [failed']
      exact .failed proper alike
    · rw [← alike.limit] at gives
      exact .giveUp gives proper alike advances
  | ok calls =>
    obtain ⟨-, -, free⟩ := CallStack.depth_le_of_push entered
    cases entered' : m'.calls.push ⟨function, span⟩ with
    | error kind' =>
      obtain ⟨-, full⟩ := CallStack.push_eq_error entered'
      have limits := c.limit_le
      rw [alike.frames, alike.limit'] at full
      rw [alike.limit] at free
      omega
    | ok calls' =>
      have ends := couples.ends (alike.enter place entered entered')
      simp only [Run.inCall, entered, entered']
      generalize piece { m with calls } = outcome, piece' { m' with calls := calls' } = outcome'
        at ends ⊢
      cases ends with
      | done alike => exact .done alike.pop
      | @failed e after after' proper alike =>
        have frames : after'.calls.backtrace = after.calls.backtrace := alike.frames
        simp only [frames]
        exact .failed proper.leave alike.pop
      | faulted alike => exact .faulted alike.pop
      | outOfFuel => exact .outOfFuel
      | starved more => exact .starved more
      | @gaveUp e after outcome' gives proper follows =>
        have gives' : c.GivesUp (e.withBacktrace after.calls.backtrace).kind := by
          rw [e.withBacktrace_kind]
          exact gives
        refine .gaveUp gives' proper.leave ?_
        cases outcome' with
        | done | failed | faulted => exact follows
        | outOfFuel => trivial

theorem forEach {piece piece' : α → Run Unit} {items : List α}
    (each : ∀ item ∈ items, c.Couples (piece item) (piece' item)) :
    c.Couples (Run.forEach piece items) (Run.forEach piece' items) := by
  induction items with
  | nil => exact pure ()
  | cons item rest ih =>
    obtain ⟨head, tail⟩ := List.forall_mem_cons.mp each
    exact head.bind fun _ => ih tail

end Couples

end Comparison

end Lu
