import Lu.Proofs.Run.Following
import Lu.Proofs.Run.Regular

namespace Lu

/-!
Safe pieces of a run: however such a piece ends, all it has done so far was right.
-/

/-- Neither an assignment, which has the value that was assigned, nor a call of a function of the
program, which has the value that the function returns. -/
def Expr.Plain : Expr → Prop
  | .assign .. => False
  | .call _ _ _ _ callee => ∀ symbol, callee.value? ≠ some (.user symbol)
  | _ => True

/-- The value has the type of the expression. An expression of type `void` that is not plain can have
any value. -/
structure Expr.Describes (e : Expr) (value : Value) : Prop where
  type : ∀ ty, e.type.value? = some ty → ty ≠ .void ∨ e.Plain → value.type = ty

/-- That an expression has a type other than `void` is all one needs to know of it. -/
instance (e : Expr) (value : Value) :
    CoeFun (e.Describes value) fun _ => ∀ ty, e.type.value? = some ty → ty ≠ .void → value.type = ty :=
  ⟨fun describes ty known notVoid => describes.type ty known (.inl notVoid)⟩

/-- What happened is what the checker has foreseen. A name is looked for in the scopes that are
visible. One of them holds the variable that the symbol stands for, and in a strict run none before
it holds another of the name. -/
def Event.Fine (strict : Prop) : Event → Prop
  | .evaluated e value => strict → e.Describes value
  | .referred name symbol layout context =>
    (∀ index, (context.scopes[index]?).any (·.contains name) = (layout.owner? index name).isSome) ∧
      ∃ s before index after, symbol.value? = some s ∧
        context.visibleScopes = before ++ index :: after ∧ layout.owner? index name = some s ∧
        (∀ nearer ∈ before, layout.owner? nearer name ≠ some s) ∧
        (strict → ∀ nearer ∈ before, layout.owner? nearer name = none)
  | .called symbol context => ∃ decl index,
      context.getFunction symbol.id symbol.name = .ok (decl, index) ∧
        decl.symbol.value? = some symbol

def History.Fine (strict : Prop) (history : History) : Prop :=
  ∀ event ∈ history.events, event.Fine strict

theorem History.Fine.add {strict : Prop} {history : History} {event : Event}
    (fine : history.Fine strict) (eventFine : event.Fine strict) :
    (history.add event).Fine strict := by
  intro other member
  rcases List.mem_cons.mp member with rfl | member
  · exact eventFine
  · exact fine other member

namespace Watched

open Recorded

variable {strict : Prop} {α β : Type} {history : History} {machine : Machine}

/-- The history is fine, and the run keeps the promise or stops in a permitted way. -/
def Ends (strict : Prop) (post : α → History → Machine → Prop) : Outcome α × History → Prop
  | (.done value after, history) => history.Fine strict ∧ post value history after
  | (.failed e _, history) => history.Fine strict ∧ e.kind.Permitted strict
  | (.faulted f _, history) => history.Fine strict ∧ f = .formatOutOfRange
  | (.outOfFuel, history) => history.Fine strict

/-- However the run of the piece ends, or if it is cut short, all was fine so far. -/
def Safe (strict : Prop) (piece : Watched α) (history : History) (machine : Machine)
    (post : α → History → Machine → Prop) : Prop :=
  Ends strict post (piece history machine)

theorem Safe.pure {value : α} {post : α → History → Machine → Prop} (fine : history.Fine strict)
    (done : post value history machine) : Safe strict (pure value) history machine post :=
  ⟨fine, done⟩

theorem Safe.bind {first : Watched α} {next : α → Watched β} {between : α → History → Machine → Prop}
    {post : β → History → Machine → Prop} (atFirst : Safe strict first history machine between)
    (atNext : ∀ value history' machine', history'.Fine strict → between value history' machine' →
      Safe strict (next value) history' machine' post) :
    Safe strict (first >>= next) history machine post := by
  change Ends strict post (Recorded.bind first next history machine)
  unfold Safe at atFirst
  unfold Recorded.bind
  generalize first history machine = result at atFirst ⊢
  rcases result with ⟨value | e | f | _, after⟩
  · exact atNext _ _ _ atFirst.1 atFirst.2
  · exact atFirst
  · exact atFirst
  · exact atFirst

theorem Safe.mono {piece : Watched α} {weaker post : α → History → Machine → Prop}
    (safe : Safe strict piece history machine post)
    (imp : ∀ value history' machine', post value history' machine' → weaker value history' machine') :
    Safe strict piece history machine weaker := by
  unfold Safe at safe ⊢
  generalize piece history machine = result at safe ⊢
  rcases result with ⟨value | e | f | _, after⟩
  · exact ⟨safe.1, imp _ _ _ safe.2⟩
  · exact safe
  · exact safe
  · exact safe

theorem Safe.outOfFuel {post : α → History → Machine → Prop} (fine : history.Fine strict) :
    Safe strict (step watching Run.outOfFuel) history machine post := fine

/-- A step that is done. -/
theorem Safe.done {piece : Run α} {value : α} {after : Machine} {post : α → History → Machine → Prop}
    (fine : history.Fine strict) (run : piece machine = .done value after)
    (done : post value history after) : Safe strict (step watching piece) history machine post := by
  simp only [Safe, step_apply, run]
  exact ⟨fine, done⟩

theorem Safe.bind_done {piece : Run α} {value : α} {after : Machine} {next : α → Watched β}
    {post : β → History → Machine → Prop} (run : piece machine = .done value after)
    (rest : Safe strict (next value) history after post) :
    Safe strict (step watching piece >>= next) history machine post := by
  change Ends strict post (Recorded.bind (step watching piece) next history machine)
  simp only [Recorded.bind, step_apply, run]
  exact rest

theorem Safe.bind_note {record : Machine → History → History} {next : Unit → Watched β}
    {post : β → History → Machine → Prop}
    (rest : Safe strict (next ()) (record machine history) machine post) :
    Safe strict (Recorded.note record >>= next) history machine post := rest

theorem Safe.fail {piece : Run α} {kind : RuntimeErrorKind} {span : Span} {after : Machine}
    {post : α → History → Machine → Prop} (fine : history.Fine strict)
    (run : piece machine = .failed { kind, span } after) (permitted : kind.Permitted strict) :
    Safe strict (step watching piece) history machine post := by
  simp only [Safe, step_apply, run]
  exact ⟨fine, permitted⟩

/-- Two steps that end alike are safe alike. -/
theorem Safe.step_congr {piece other : Run α} {machine' : Machine}
    {post : α → History → Machine → Prop} (same : piece machine = other machine')
    (safe : Safe strict (step watching other) history machine' post) :
    Safe strict (step watching piece) history machine post := by
  unfold Safe at safe ⊢
  rw [step_apply] at safe ⊢
  rw [same]
  exact safe

/-- A value that is pushed if the attempt at it succeeds. -/
theorem Safe.pushAttempt {span : Span} {result : Except RuntimeErrorKind Value}
    {attempted : Value → Prop} {post : Unit → History → Machine → Prop}
    (fine : history.Fine strict) (regular : Regular strict result attempted)
    (done : ∀ value, attempted value →
      post () history { machine with operands := value :: machine.operands }) :
    Safe strict (step watching do Run.push (← Run.attempt span result)) history machine post := by
  cases result with
  | ok value => exact .done fine rfl (done value regular)
  | error kind => exact .fail fine rfl regular

theorem Safe.note {record : Machine → History → History} {post : Unit → History → Machine → Prop}
    (fine : (record machine history).Fine strict) (done : post () (record machine history) machine) :
    Safe strict (note record) history machine post := ⟨fine, done⟩

theorem Safe.between {enter leave : Context → Context} {inside : History → History}
    {piece : Watched α} {post : α → History → Machine → Prop}
    (safe : Safe strict piece (inside history) { machine with context := enter machine.context }
      fun value history' machine' => post value { history' with layout := history.layout }
        { machine' with context := leave machine'.context }) :
    Safe strict (between watching enter leave inside piece) history machine post := by
  unfold Safe at safe
  unfold Safe Recorded.between Run.between
  simp only
  generalize piece _ _ = result at safe ⊢
  rcases result with ⟨value | e | f | _, after⟩
  · exact safe
  · exact safe
  · exact safe
  · exact safe

/-- A call can only fail to begin when too many are active. -/
theorem Safe.inCall {function : String} {span : Span} {piece : Watched α}
    {post : α → History → Machine → Prop} (fine : history.Fine strict)
    (safe : ∀ calls, Safe strict piece history { machine with calls }
      fun value history' machine' =>
        ∀ calls, post value { history' with layout := history.layout } { machine' with calls }) :
    Safe strict (inCall watching function span piece) history machine post := by
  unfold Safe Recorded.inCall Run.inCall
  cases pushed : machine.calls.push ⟨function, span⟩ with
  | error kind =>
    unfold CallStack.push at pushed
    split at pushed
    · cases pushed
      exact ⟨fine, trivial⟩
    · cases pushed
  | ok calls =>
    have inner : Safe strict piece (watching.entersCall ⟨function, span⟩ history)
        { machine with calls } _ := safe calls
    unfold Safe at inner
    simp only
    generalize piece _ { machine with calls } = result at inner ⊢
    rcases result with ⟨value | e | f | _, after⟩
    · exact ⟨inner.1, inner.2 _⟩
    · refine ⟨inner.1, ?_⟩
      simp only [RuntimeError.withBacktrace]
      split <;> exact inner.2
    · exact inner
    · exact inner

end Watched

end Lu
