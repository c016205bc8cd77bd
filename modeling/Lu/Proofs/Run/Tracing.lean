import Lu.Proofs.Run.Comparison
import Lu.Proofs.Run.Confined
import Lu.Proofs.Run.Traced

namespace Lu

/-!
On its way a run comes only through machines in which the stacks agree. An error gets the calls that are
active where it is raised, and nothing that it passes through later changes them.
-/

/-- The frames are well formed, and there is one for each active call, of which there are not too
many. -/
structure Machine.Steady (limit : Nat) (active : List CallFrame) (machine : Machine) : Prop where
  framed : machine.context.Framed
  active : machine.calls.backtrace = active
  frames : machine.context.calls.length = machine.calls.depth
  bounded : machine.calls.depth ≤ limit
  limit : machine.calls.limit = limit

def Visit.Steady (limit : Nat) (visit : Visit) : Prop := visit.machine.Steady limit visit.active

theorem Machine.Keeps.steady {limit growing : Nat} {active : List CallFrame} {machine after : Machine}
    (kept : machine.Keeps growing after) (steady : machine.Steady limit active) :
    after.Steady limit active := by
  refine ⟨kept.changes.framed steady.framed, ?_, ?_, ?_, ?_⟩
  · rw [kept.calls, steady.active]
  · rw [kept.calls, kept.changes.calls, steady.frames]
  · rw [kept.calls]
    exact steady.bounded
  · rw [kept.calls, steady.limit]

theorem Machine.Steady.pushScope {limit : Nat} {active : List CallFrame} {machine : Machine}
    (steady : machine.Steady limit active) :
    Machine.Steady limit active { machine with context := machine.context.pushScope } :=
  ⟨steady.framed.pushScope, steady.active, steady.frames, steady.bounded, steady.limit⟩

/-- The machine in the frame of a call that has just begun. -/
theorem Machine.Steady.enter {limit : Nat} {active : List CallFrame} {machine : Machine}
    {frame : CallFrame} {home : Nat} {calls : CallStack} (steady : machine.Steady limit active)
    (declared : home < machine.context.depth) (pushed : machine.calls.push frame = .ok calls) :
    Machine.Steady limit (frame :: active)
      { machine with calls, context := machine.context.pushFrame home } := by
  obtain ⟨frames, limit_eq, room⟩ := CallStack.depth_le_of_push pushed
  have depth : calls.depth = machine.calls.depth + 1 := by
    rw [calls.depth_eq, machine.calls.depth_eq, frames, List.length_cons]
  refine ⟨steady.framed.pushFrame declared, ?_, ?_, ?_, limit_eq.trans steady.limit⟩
  · exact frames.trans (congrArg (frame :: ·) steady.active)
  · simp only [Context.pushFrame, List.length_cons, steady.frames, depth]
  · have limited := steady.limit
    have deep := machine.calls.depth_eq
    simp only [depth]
    omega

namespace Run

variable {α β : Type} {growing : Nat}

/-- Errors that no call has been added to. -/
def Bare (piece : Run α) : Prop :=
  ∀ machine e after, piece machine = .failed e after → e.backtrace = []

theorem Bare.bind {first : Run α} {next : α → Run β} (atFirst : Bare first)
    (atNext : ∀ value, Bare (next value)) : Bare (first >>= next) := by
  intro machine e after failed
  rw [Run.bind_apply] at failed
  cases ran : first machine with
  | done value middle =>
    rw [ran] at failed
    exact atNext value middle e after failed
  | failed e' after' =>
    rw [ran] at failed
    cases failed
    exact atFirst machine e after ran
  | faulted | outOfFuel =>
    rw [ran] at failed
    cases failed

theorem Bare.change (span : Span) (action : Context.Action) : Bare (Run.change span action) := by
  intro machine e after failed
  unfold Run.change at failed
  split at failed <;> cases failed
  rfl

theorem Bare.callNative (name : String) (args : List Value) (span : Span) :
    Bare (Run.callNative name args span) := by
  intro machine e after failed
  unfold Run.callNative at failed
  repeat' split at failed
  all_goals cases failed
  all_goals rfl

namespace Simple

theorem bare {piece : Run α} (simple : piece.Simple growing) : Bare piece := by
  induction simple with
  | bind _ _ atFirst atNext => exact atFirst.bind atNext
  | outOfFuel | pure | context | push =>
    intro machine e after failed
    cases failed
  | fail =>
    intro machine e after failed
    cases failed
    rfl
  | attempt _ result =>
    intro machine e after failed
    cases result <;> cases failed
    rfl
  | attemptFault result =>
    intro machine e after failed
    cases result <;> cases failed
  | pop | peek | popMany =>
    intro machine e after failed
    simp only [Run.pop, Run.peek, Run.popMany] at failed
    split at failed <;> cases failed
    rfl
  | callNative name args span => exact .callNative name args span
  | assign | defineVariable | defineFunction => exact .change _ _

theorem confined {piece : Run α} (simple : piece.Simple growing) : Confined growing piece := by
  induction simple with
  | bind _ _ atFirst atNext => exact atFirst.bind atNext
  | outOfFuel => exact .of_quiet outOfFuel_quiet
  | pure _ value => exact .of_quiet (pure_quiet value)
  | fail _ kind span => exact .of_quiet (fail_quiet kind span)
  | attempt span result => exact confined_logic.attempt span result
  | attemptFault result => exact confined_logic.attemptFault result
  | context => exact confined_logic.context
  | push value => exact confined_logic.push value
  | pop span => exact confined_logic.pop span
  | peek span => exact confined_logic.peek span
  | popMany count span => exact confined_logic.popMany count span
  | callNative name args span => exact confined_logic.callNative name args span
  | assign span name value => exact confined_logic.assign span name value
  | defineVariable span name value => exact confined_logic.defineVariable span name value
  | defineFunction span decl => exact confined_logic.defineFunction span decl

end Simple

end Run

/-- An error is the latest thing that was come to. It has the calls that were active then, or it has
none yet, and these were active. -/
def Outcome.RaisedLast {α : Type} (active : List CallFrame) (visits : List Visit) : Outcome α → Prop
  | .failed e _ => ∃ machine,
      visits.head? = some ⟨.raise e.kind e.span, (e.withBacktrace active).backtrace, machine⟩
  | .done _ _ | .faulted _ _ | .outOfFuel => True

/-- The second trail goes on from the first one: it has come through steady machines only, and back to
the calls that were active; if an error was raised on the way, that is where it ends. -/
structure Trail.Continues {α : Type} (limit : Nat) (trail : Trail) (outcome : Outcome α)
    (after : Trail) : Prop where
  active : after.active = trail.active
  steady : (∀ visit ∈ trail.visits, visit.Steady limit) → ∀ visit ∈ after.visits, visit.Steady limit
  raised : outcome.RaisedLast trail.active after.visits

namespace Trail.Continues

variable {α : Type} {limit : Nat} {trail after : Trail} {machine : Machine}

/-- A visit at the beginning. -/
theorem visited {outcome : Outcome α} {task : Task} (steady : machine.Steady limit trail.active)
    (continues : (trail.visit task machine).Continues limit outcome after) :
    trail.Continues limit outcome after :=
  ⟨continues.active, fun before => continues.steady (List.forall_mem_cons.mpr ⟨steady, before⟩),
    continues.raised⟩

/-- An error that is raised here. -/
theorem raise {e : RuntimeError} {left : Machine} (bare : e.backtrace = [])
    (steady : machine.Steady limit trail.active) :
    trail.Continues limit (.failed e left : Outcome α) (trail.visit (.raise e.kind e.span) machine) := by
  refine ⟨rfl, fun before => List.forall_mem_cons.mpr ⟨steady, before⟩, machine, ?_⟩
  simp only [Trail.visit, List.head?_cons, RuntimeError.withBacktrace, bare, List.isEmpty_nil, if_true]

end Trail.Continues

namespace Traced

variable {α β : Type} {limit growing : Nat} {trail : Trail} {machine : Machine}

/-- The end of an expression leaves nothing in the trail, and neither does a declaration. -/
theorem noted (traced : Traced Unit) :
    (traced >>= fun _ => Recorded.note fun _ trail => trail) = traced := by
  funext trail machine
  change Recorded.bind traced _ trail machine = _
  unfold Recorded.bind
  rcases traced trail machine with ⟨value | e | f | _, after⟩ <;> rfl

/-- The recorded piece changes nothing but its trail, and in well-formed frames the piece changes nothing
that it does not see. -/
structure Follows (limit growing : Nat) (traced : Traced α) (piece : Run α) : Prop where
  erases : Recorded.Erases traced piece
  confined : Run.Confined growing piece
  continues (trail : Trail) (machine : Machine) : machine.Steady limit trail.active →
    trail.Continues limit (piece machine) (traced trail machine).2

theorem Follows.step {piece : Run α} (bare : Run.Bare piece) (confined : Run.Confined growing piece) :
    Follows limit growing (Recorded.step tracing piece) piece := by
  refine ⟨.step piece, confined, fun trail machine steady => ?_⟩
  unfold Recorded.step
  cases ran : piece machine with
  | failed e left => exact .raise (bare machine e left ran) steady
  | done | faulted | outOfFuel => exact ⟨rfl, id, trivial⟩

theorem Follows.simple {piece : Run α} (simple : piece.Simple growing) :
    Follows limit growing (Recorded.step tracing piece) piece :=
  .step simple.bare simple.confined

theorem Follows.bind {first : Traced α} {next : α → Traced β} {first' : Run α} {next' : α → Run β}
    (atFirst : Follows limit growing first first')
    (atNext : ∀ value, Follows limit growing (next value) (next' value)) :
    Follows limit growing (first >>= next) (first' >>= next') := by
  refine ⟨atFirst.erases.bind fun value => (atNext value).erases,
    atFirst.confined.bind fun value => (atNext value).confined, fun trail machine steady => ?_⟩
  have early := atFirst.continues trail machine steady
  have kept := atFirst.confined machine steady.framed
  change trail.Continues limit _ (Recorded.bind first next trail machine).2
  rw [Run.bind_apply]
  rw [← atFirst.erases trail machine] at early kept ⊢
  unfold Recorded.bind
  generalize first trail machine = result at early kept ⊢
  obtain ⟨outcome, middle⟩ := result
  cases outcome with
  | done value left =>
    have active : middle.active = trail.active := early.active
    have steady' : left.Steady limit middle.active := active ▸ Machine.Keeps.steady kept steady
    have late := (atNext value).continues middle left steady'
    exact ⟨late.active.trans active, late.steady ∘ early.steady, active ▸ late.raised⟩
  | failed | faulted | outOfFuel => exact ⟨early.active, early.steady, early.raised⟩

theorem Follows.visit {traced : Traced α} {piece : Run α} (task : Task)
    (follows : Follows limit growing traced piece) :
    Follows limit growing (Recorded.visit tracing task traced) piece :=
  { erases := fun _ machine => follows.erases _ machine
    confined := follows.confined
    continues := fun trail machine steady =>
      .visited steady (follows.continues (trail.visit task machine) machine steady) }

theorem Follows.inScope {traced : Traced α} {piece : Run α} (follows : Follows limit 1 traced piece) :
    Follows limit 0 (Recorded.inScope tracing traced) (Run.inScope piece) := by
  refine ⟨follows.erases.between _ _ _, follows.confined.inScope, fun trail machine steady => ?_⟩
  have inner := follows.continues trail _ steady.pushScope
  change trail.Continues limit (Run.between Context.pushScope Context.popScope piece machine)
    (tracing.leaves trail (traced trail { machine with context := machine.context.pushScope }).2)
  unfold Run.between
  generalize piece _ = outcome at inner ⊢
  cases outcome with
  | done | failed | faulted | outOfFuel => exact ⟨rfl, inner.steady, inner.raised⟩

/-- An error that leaves the call has its calls by then, and keeps them. -/
theorem Follows.entered {traced : Traced α} {piece : Run α} (follows : Follows limit 1 traced piece)
    (function : String) (span : Span) (steady : machine.Steady limit trail.active) {home : Nat}
    (declared : home < machine.context.depth) :
    trail.Continues limit (Run.inCall function span (Run.inFrame home piece) machine)
      (Recorded.inCall tracing function span (Recorded.inFrame tracing home traced) trail machine).2 := by
  unfold Recorded.inCall Run.inCall
  cases pushed : machine.calls.push ⟨function, span⟩ with
  | error kind => exact .raise rfl steady
  | ok calls =>
    have steady' := steady.enter declared pushed
    have inner := follows.continues (tracing.entersCall ⟨function, span⟩ trail) _ steady'
    have kept := follows.confined _ steady'.framed
    have popped : calls.pop.backtrace = trail.active := by
      rw [CallStack.pop_push pushed, steady.active]
    have running : calls.backtrace = ⟨function, span⟩ :: trail.active := steady'.active
    change trail.Continues limit _ (tracing.leaves trail
      (tracing.leaves (tracing.entersCall ⟨function, span⟩ trail) (traced _ _).2))
    unfold Run.inFrame Run.between
    simp only
    generalize piece _ = outcome at kept inner ⊢
    cases outcome with
    | done | faulted | outOfFuel => exact ⟨rfl, inner.steady, trivial⟩
    | failed e left =>
      obtain ⟨failing, latest⟩ := inner.raised
      have calls_eq : left.calls = calls := kept.calls
      have whole := e.withBacktrace_pop calls
      rw [popped, running] at whole
      refine ⟨rfl, inner.steady, failing, latest.trans ?_⟩
      simp only [calls_eq, running, whole, RuntimeError.withBacktrace_kind,
        RuntimeError.withBacktrace_span]
      rfl

/-- If the function is not found, the call is not entered. -/
theorem Follows.call (id : Nat) (name : String) (span : Span) {traced : FunctionDecl → Traced α}
    {body : FunctionDecl → Run α} (follows : ∀ decl, Follows limit 1 (traced decl) (body decl)) :
    Follows limit 0
      (do
        let context ← Recorded.step tracing Run.context
        let (decl, scope) ← Recorded.step tracing (Run.attempt span (context.getFunction id name))
        Recorded.inCall tracing decl.name span (Recorded.inFrame tracing scope (traced decl)))
      (do
        let (decl, scope) ← Run.attempt span ((← Run.context).getFunction id name)
        Run.inCall decl.name span (Run.inFrame scope (body decl))) := by
  refine ⟨(Recorded.erases_logic tracing).call id name span fun decl => (follows decl).erases,
    .call fun decl => (follows decl).confined, fun trail machine steady => ?_⟩
  change trail.Continues limit
    (Run.bind (Run.attempt span (machine.context.getFunction id name)) _ machine)
    (Recorded.bind (Recorded.step tracing (Run.attempt span (machine.context.getFunction id name))) _
      trail machine).2
  cases found : machine.context.getFunction id name with
  | error kind => exact .raise rfl steady
  | ok function =>
    obtain ⟨decl, home⟩ := function
    have declared : home < machine.context.depth :=
      steady.framed.lt_depth (Context.getFunction_visible found)
    exact (follows decl).entered decl.name span steady declared

theorem evaluating_eq (e : Expr) (traced : Traced Unit) :
    Recorded.evaluating tracing e traced = traced :=
  noted traced

theorem bindVariable_eq (span : Span) (name : String) (symbol : VariableSymbol) (value : Value) :
    Recorded.bindVariable tracing span name symbol value =
      Recorded.step tracing (Run.change span (Context.addVariable name value)) :=
  noted _

theorem defineFunction_eq (decl : FunctionDecl) : Recorded.defineFunction tracing decl =
    Recorded.step tracing (Run.change decl.nameSpan (Context.addFunction decl)) :=
  noted _

/-- Every piece of a run leaves a trail. -/
theorem follows_logic (limit : Nat) : Recorded.Logic tracing fun _ growing recorded piece =>
    Follows limit growing recorded piece where
  pure growing value := ⟨fun _ _ => rfl, (Run.Simple.pure growing value).confined,
    fun _ _ _ => ⟨rfl, id, trivial⟩⟩
  bind := Follows.bind
  grown follows := { follows with confined := follows.confined.grown }
  step := Follows.simple
  visit := Follows.visit
  evaluating e follows := by
    rw [evaluating_eq]
    exact follows
  refer _ _ follows := follows
  bindVariable span name symbol value := by
    rw [bindVariable_eq]
    exact .simple (.defineVariable span name value)
  defineFunction decl := by
    rw [defineFunction_eq]
    exact .simple (.defineFunction decl.nameSpan decl)
  inScope := Follows.inScope
  call := Follows.call

theorem evaluatorsFollow (limit fuel : Nat) : Recorded.EvaluatorsJudged tracing
    (fun _ growing recorded piece => Follows limit growing recorded piece) fuel :=
  (follows_logic limit).evaluators fuel

theorem program_follows (limit fuel : Nat) (p : Program) :
    Follows limit 1 (Recorded.program tracing fuel p) (Run.program fuel p) := by
  have logic := follows_logic limit
  refine (logic.topLevel (logic.evaluators fuel).stmt p.statements .void).bind fun last => ?_
  refine .step ((Run.Simple.push last).bare.bind fun _ machine e after failed => ?_)
    ((Run.Confined.of_quiet (Run.push_quiet last)).bind fun _ machine framed => ?_)
  · split at failed
    · exact (Run.Simple.pop p.span).bare machine e after failed
    · cases failed
      rfl
  · split
    · exact Run.Confined.of_quiet (Run.pop_quiet p.span) machine framed
    · exact .refl ..

end Traced

end Lu
