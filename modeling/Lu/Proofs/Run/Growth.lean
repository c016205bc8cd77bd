import Lu.Interpreter
import Lu.Proofs.Run.Effects
import Lu.Proofs.Run.Logic

namespace Lu

/-!
A run gives back every call that it enters, whether the call ends well or not. It only adds to what has
been printed, and reads the input from the front.
-/

/-- The machine that a piece of a run leaves, if it leaves one, has the property. -/
def Outcome.Leaves {α : Type} (property : Machine → Prop) : Outcome α → Prop
  | .done _ machine | .failed _ machine | .faulted _ machine => property machine
  | .outOfFuel => True

/-- The second machine has the calls of the first one, and its world comes after. -/
structure Machine.Leads (machine after : Machine) : Prop where
  calls : after.calls = machine.calls
  env : machine.env.Leads after.env

theorem Machine.Leads.refl (machine : Machine) : machine.Leads machine := ⟨rfl, .refl _⟩

theorem Machine.Leads.trans {machine between after : Machine} (first : machine.Leads between)
    (second : between.Leads after) : machine.Leads after :=
  ⟨second.calls.trans first.calls, first.env.trans second.env⟩

theorem CallStack.pop_push {stack pushed : CallStack} {frame : CallFrame}
    (entered : stack.push frame = .ok pushed) : pushed.pop = stack := by
  obtain ⟨frames, depth, limit, depth_eq⟩ := stack
  unfold push at entered
  split at entered
  · cases entered
  · cases entered
    simp [pop]

theorem Outcome.Leaves.mono {α : Type} {stronger weaker : Machine → Prop} {outcome : Outcome α}
    (leaves : outcome.Leaves stronger) (imp : ∀ after, stronger after → weaker after) :
    outcome.Leaves weaker := by
  cases outcome with
  | done | failed | faulted => exact imp _ leaves
  | outOfFuel => trivial

namespace Run

variable {α β : Type}

def Advances (piece : Run α) : Prop := ∀ machine, (piece machine).Leaves machine.Leads

theorem pure_advances (value : α) : Advances (pure value) := Machine.Leads.refl

theorem Advances.bind {first : Run α} {next : α → Run β} (atFirst : Advances first)
    (atNext : ∀ value, Advances (next value)) : Advances (first >>= next) := by
  intro machine
  have leads := atFirst machine
  rw [bind_apply]
  generalize first machine = outcome at leads ⊢
  cases outcome with
  | done value between => exact (atNext value between).mono fun after => leads.trans
  | failed e after => exact leads
  | faulted f after => exact leads
  | outOfFuel => trivial

theorem outOfFuel_advances : Advances (outOfFuel : Run α) := fun _ => trivial

theorem fail_advances (kind : RuntimeErrorKind) (span : Span) : Advances (fail kind span : Run α) :=
  Machine.Leads.refl

theorem attempt_advances (span : Span) (result : Except RuntimeErrorKind α) :
    Advances (attempt span result) := by
  intro machine
  cases result <;> exact .refl machine

theorem attemptFault_advances (result : Except Fault α) : Advances (attemptFault result) := by
  intro machine
  cases result <;> exact .refl machine

theorem context_advances : Advances context := Machine.Leads.refl

theorem change_advances (span : Span) (action : Context.Action) : Advances (change span action) := by
  intro machine
  unfold Run.change
  cases action machine.context <;> exact ⟨rfl, .refl _⟩

theorem push_advances (value : Value) : Advances (push value) := fun _ => ⟨rfl, .refl _⟩

theorem pop_advances (span : Span) : Advances (pop span) := by
  intro machine
  unfold Run.pop
  cases machine.operands <;> exact ⟨rfl, .refl _⟩

theorem peek_advances (span : Span) : Advances (peek span) := by
  intro machine
  unfold Run.peek
  cases machine.operands <;> exact .refl machine

theorem popMany_advances (count : Nat) (span : Span) : Advances (popMany count span) := by
  intro machine
  simp only [Run.popMany]
  split <;> exact ⟨rfl, .refl _⟩

theorem Advances.between {piece : Run α} (enter leave : Context → Context) (advances : Advances piece) :
    Advances (between enter leave piece) := by
  intro machine
  have leads := advances { machine with context := enter machine.context }
  unfold Run.between
  generalize piece _ = outcome at leads ⊢
  cases outcome with
  | done | failed | faulted => exact ⟨leads.calls, leads.env⟩
  | outOfFuel => trivial

theorem Advances.inCall {piece : Run α} (function : String) (span : Span) (advances : Advances piece) :
    Advances (inCall function span piece) := by
  intro machine
  unfold Run.inCall
  cases entered : machine.calls.push ⟨function, span⟩ with
  | error kind => exact .refl machine
  | ok calls =>
    have leads := advances { machine with calls }
    have popped := CallStack.pop_push entered
    simp only
    generalize piece { machine with calls } = outcome at leads ⊢
    cases outcome with
    | done | failed | faulted => exact ⟨by rw [leads.calls, popped], leads.env⟩
    | outOfFuel => trivial

theorem callNative_advances (name : String) (args : List Value) (span : Span) :
    Advances (callNative name args span) := by
  intro machine
  rw [Run.callNative_eq]
  cases Native.ofName? name with
  | none => exact .refl machine
  | some native =>
    obtain ⟨effect, -, uniform⟩ := native.call_uniform args
    simp only
    cases made : native.call args machine.env with
    | ok result => exact ⟨rfl, Native.Effect.leads ((uniform machine.env).symm.trans made)⟩
    | error stop => cases stop <;> exact .refl machine

/-- All pieces of a run advance. -/
theorem advances_logic : Logic fun _ _ _ _ piece => Advances piece where
  outOfFuel _ _ _ := outOfFuel_advances
  pure _ _ value := pure_advances value
  bind := Advances.bind
  above _ advances := advances
  grown advances := advances
  fail _ _ _ kind span := fail_advances kind span
  attempt := attempt_advances
  attemptFault := attemptFault_advances
  context := context_advances
  push := push_advances
  pop := pop_advances
  peek := peek_advances
  popMany := popMany_advances
  callNative := callNative_advances
  assign _ _ _ := change_advances _ _
  defineVariable _ _ _ := change_advances _ _
  defineFunction _ _ := change_advances _ _
  inScope advances := .between _ _ advances
  call advances := context_advances.bind fun _ => (attempt_advances _ _).bind fun found =>
    .inCall _ _ (.between _ _ (advances found.1))

theorem evaluators_advance (fuel : Nat) :
    EvaluatorsJudged (fun _ _ _ _ piece => Advances piece) fuel :=
  advances_logic.evaluators fuel

theorem program_advances (fuel : Nat) (p : Program) : Advances (program fuel p) := by
  have top := advances_logic.topLevel (evaluators_advance fuel).stmt p.statements .void
  refine top.bind fun last => (push_advances last).bind fun _ machine => ?_
  split
  · exact pop_advances p.span machine
  · exact .refl machine

end Run

/-- Whatever the program and however its run ends: all calls are given back, the input is read from the
front, and what was printed before stays. -/
theorem Machine.run_leads (fuel : Nat) (p : Program) (machine : Machine) :
    machine.Leads (machine.run fuel p).2 := by
  obtain ⟨context, operands, calls, env⟩ := machine
  unfold Machine.run Machine.evaluate
  cases operands with
  | cons => exact .refl _
  | nil =>
    have advances := Run.program_advances fuel p ⟨Context.initial, [], calls, env⟩
    simp only
    generalize Run.program fuel p ⟨Context.initial, [], calls, env⟩ = outcome at advances ⊢
    cases outcome with
    | done | failed | faulted => exact ⟨advances.calls, advances.env⟩
    | outOfFuel => exact .refl _

end Lu
