import Lu.Proofs.Run.Growth

namespace Lu

/-!
Quiet pieces of a run: they work on the operands and the environment, and leave the context and the
calls as they are.
-/

namespace Run

variable {α β : Type}

def Quiet (piece : Run α) : Prop :=
  ∀ machine, (piece machine).Leaves fun after =>
    after.context = machine.context ∧ after.calls = machine.calls

theorem Quiet.bind {first : Run α} {next : α → Run β} (atFirst : Quiet first)
    (atNext : ∀ value, Quiet (next value)) : Quiet (first >>= next) := by
  intro machine
  have same := atFirst machine
  rw [bind_apply]
  generalize first machine = outcome at same ⊢
  cases outcome with
  | done value middle =>
    refine (atNext value middle).mono fun after kept => ?_
    exact ⟨kept.1.trans same.1, kept.2.trans same.2⟩
  | failed | faulted => exact same
  | outOfFuel => trivial

theorem pure_quiet (value : α) : Quiet (pure value : Run α) := fun _ => ⟨rfl, rfl⟩

theorem outOfFuel_quiet : Quiet (outOfFuel : Run α) := fun _ => trivial

theorem fail_quiet (kind : RuntimeErrorKind) (span : Span) : Quiet (fail kind span : Run α) :=
  fun _ => ⟨rfl, rfl⟩

theorem attempt_quiet (span : Span) (result : Except RuntimeErrorKind α) :
    Quiet (attempt span result) := by
  intro machine
  cases result <;> exact ⟨rfl, rfl⟩

theorem attemptFault_quiet (result : Except Fault α) : Quiet (attemptFault result) := by
  intro machine
  cases result <;> exact ⟨rfl, rfl⟩

theorem context_quiet : Quiet context := fun _ => ⟨rfl, rfl⟩

theorem push_quiet (value : Value) : Quiet (push value) := fun _ => ⟨rfl, rfl⟩

theorem pop_quiet (span : Span) : Quiet (pop span) := by
  intro machine
  unfold Run.pop
  cases machine.operands <;> exact ⟨rfl, rfl⟩

theorem peek_quiet (span : Span) : Quiet (peek span) := by
  intro machine
  unfold Run.peek
  cases machine.operands <;> exact ⟨rfl, rfl⟩

theorem popMany_quiet (count : Nat) (span : Span) : Quiet (popMany count span) := by
  intro machine
  simp only [Run.popMany]
  split <;> exact ⟨rfl, rfl⟩

theorem callNative_quiet (name : String) (args : List Value) (span : Span) :
    Quiet (callNative name args span) := by
  intro machine
  rw [Run.callNative_eq]
  cases Native.ofName? name with
  | none => exact ⟨rfl, rfl⟩
  | some native =>
    simp only
    split <;> exact ⟨rfl, rfl⟩

theorem truth_quiet (span : Span) (value : Value) : Quiet (truth span value) := by
  cases value with
  | int n => exact pure_quiet _
  | float | str | void | nil => exact fail_quiet _ _

theorem pushAttempt_quiet (span : Span) (result : Except RuntimeErrorKind Value) :
    Quiet (do Run.push (← Run.attempt span result)) :=
  (attempt_quiet span result).bind push_quiet

end Run

end Lu
