import Lu.Proofs.Run.Balanced
import Lu.Proofs.Run.Compared
import Lu.Proofs.Run.Tracing

namespace Lu

/-!
The four stacks of a run, which are the operands, the scopes, the frames and the calls, wherever a
program has come to; and the backtraces that are read off the last one.
-/

/-- Does a task. What it gives is left out. -/
def Task.run (fuel : Nat) : Task → Run Unit
  | .expr e => Run.expr fuel e
  | .callUser symbol args span => do
    let _ ← Run.callUser fuel symbol args span
    return ()
  | .stmt s => do
    let _ ← Run.stmt fuel s
    return ()
  | .block body => do
    let _ ← Run.block fuel body
    return ()
  | .raise kind span => Run.fail kind span

/-- How many values a task adds to the operands. -/
def Task.added : Task → Nat
  | .expr _ => 1
  | .callUser .. | .stmt _ | .block _ | .raise .. => 0

/-- The scopes are as many as before, the frames and the calls are the same. -/
structure Machine.Restored (machine after : Machine) : Prop where
  scopes : after.context.depth = machine.context.depth
  frames : after.context.calls = machine.context.calls
  calls : after.calls = machine.calls

/-- The stacks are restored but for the values added, and what else a failure leaves of its own
operands. -/
def Outcome.KeepsStacks {α : Type} (machine : Machine) (added : Nat) : Outcome α → Prop
  | .done _ after =>
    machine.Restored after ∧ ∃ top, top.length = added ∧ after.operands = top ++ machine.operands
  | .failed _ after => machine.Restored after ∧ machine.operands <:+ after.operands
  | .faulted _ _ | .outOfFuel => True

/-- What a judgement on pieces of a run says of a task. -/
theorem Run.Logic.task {Judged : (α : Type) → Nat → Nat → Nat → Run α → Prop} (logic : Logic Judged)
    (task : Task) (fuel : Nat) : Judged Unit 0 task.added 1 (task.run fuel) := by
  have judged := logic.evaluators fuel
  cases task with
  | expr e => exact logic.grown (judged.expr e)
  | callUser symbol args span =>
    exact logic.bind (logic.grown (judged.callUser symbol args span)) fun _ => logic.pure 0 1 ()
  | stmt s => exact logic.bind (judged.stmt s) fun _ => logic.pure 0 1 ()
  | block body => exact logic.bind (logic.grown (judged.block body)) fun _ => logic.pure 0 1 ()
  | raise kind span => exact logic.fail 0 0 1 kind span

theorem Task.keepsStacks (task : Task) (fuel : Nat) {machine : Machine}
    (framed : machine.context.Framed) :
    (task.run fuel machine).KeepsStacks machine task.added := by
  have kept := Run.confined_logic.task task fuel machine framed
  have balances := Run.balanced_logic.task task fuel machine [] machine.operands rfl rfl
  generalize task.run fuel machine = outcome at kept balances ⊢
  cases outcome with
  | done | failed => exact ⟨⟨kept.changes.depth, kept.changes.calls, kept.calls⟩, balances⟩
  | faulted | outOfFuel => trivial

section Traces

variable {limit : Nat} {machine : Machine}

theorem Machine.Idle.steady (idle : machine.Idle limit) :
    Machine.Steady limit [] { machine with context := Context.initial } := by
  obtain ⟨context, operands, calls, env⟩ := machine
  obtain ⟨rfl, rfl⟩ := idle
  exact ⟨Context.initial_framed, rfl, rfl, Nat.zero_le limit, rfl⟩

/-- The trail of a run starts with no call active. -/
theorem Machine.Idle.record_continues (idle : machine.Idle limit) (fuel : Nat) (p : Program) :
    Trail.Continues limit {} (machine.evaluate fuel p) (machine.record tracing {} fuel p).2 := by
  have continues := (Traced.program_follows limit fuel p).continues {} _ idle.steady
  rw [machine.record_snd tracing {} fuel p idle.operands]
  simp only [Machine.evaluate, idle.operands] at continues ⊢
  generalize Run.program fuel p _ = outcome at continues ⊢
  cases outcome with
  | done | failed | faulted | outOfFuel =>
    exact ⟨continues.active, continues.steady, continues.raised⟩

theorem Machine.Idle.trace_steady (idle : machine.Idle limit) (fuel : Nat) (p : Program) :
    ∀ visit ∈ (machine.trace fuel p).2, visit.Steady limit := by
  intro visit visited
  have steady := (idle.record_continues fuel p).steady (List.forall_mem_nil _)
  exact steady visit (List.mem_reverse.mp visited)

end Traces

/-- Wherever a run comes, there is one frame for each active call, and not too many. However an
expression, a call, a statement or a block ends that is begun there, well, with a jump or with an error,
the scopes, the frames and the calls are restored, and so are the operands, but for the value of an
expression and for what an error leaves on top of them. -/
theorem every_exit_restores_stacks {limit : Nat} {machine : Machine} (idle : machine.Idle limit)
    (fuel : Nat) (p : Program) :
    (machine.trace fuel p).1 = machine.evaluate fuel p ∧
      ∀ visit ∈ (machine.trace fuel p).2, visit.machine.Steady limit visit.active ∧
        ∀ more : Nat,
          (visit.task.run more visit.machine).KeepsStacks visit.machine visit.task.added := by
  refine ⟨machine.trace_fst fuel p, fun visit visited => ?_⟩
  have steady := idle.trace_steady fuel p visit visited
  exact ⟨steady, fun more => visit.task.keepsStacks more steady.framed⟩

/-- In the factorial of five, which goes three calls deep and more. -/
theorem factorial_restores_stacks : ∃ p, Source.checked factorialSource = .ok p ∧
    (∃ visit ∈ ((Machine.fresh 10 {}).trace 100 p).2, visit.active.length = 3) ∧
    ((Machine.fresh 10 {}).trace 100 p).1 = (Machine.fresh 10 {}).evaluate 100 p ∧
    ∀ visit ∈ ((Machine.fresh 10 {}).trace 100 p).2, visit.machine.Steady 10 visit.active ∧
      ∀ more : Nat,
        (visit.task.run more visit.machine).KeepsStacks visit.machine visit.task.added := by
  have accepted : (Source.checked factorialSource).toOption.any (fun p =>
      ((Machine.fresh 10 {}).trace 100 p).2.any (·.active.length == 3)) = true := by
    decide +kernel
  obtain ⟨p, checked, some⟩ := ok_of_any accepted
  obtain ⟨visit, visited, deep⟩ := List.any_eq_true.mp some
  exact ⟨p, checked, ⟨visit, visited, beq_iff_eq.mp deep⟩,
    every_exit_restores_stacks (Machine.fresh_idle 10 {}) 100 p⟩

/-- A run ends as the traced one does, in which nothing changes an error once it is raised. An error
that ends the run is what the trace ends with: it is of the same kind and place where it is raised, and
its backtrace has the calls that are active there, the innermost first. These are, wherever the run
comes, the calls that the machine itself takes for active. -/
theorem backtrace_is_active_calls {limit : Nat} {machine : Machine} (idle : machine.Idle limit)
    (fuel : Nat) (p : Program) :
    (machine.trace fuel p).1 = machine.evaluate fuel p ∧
      (∀ visit ∈ (machine.trace fuel p).2, visit.machine.calls.backtrace = visit.active) ∧
      ∀ e after, machine.evaluate fuel p = .failed e after → ∃ failing,
        (machine.trace fuel p).2.getLast? = some ⟨.raise e.kind e.span, e.backtrace, failing⟩ := by
  have active : ∀ visit ∈ (machine.trace fuel p).2, visit.machine.calls.backtrace = visit.active :=
    fun visit visited => (idle.trace_steady fuel p visit visited).active
  refine ⟨machine.trace_fst fuel p, active, fun e after failed => ?_⟩
  have raised := (idle.record_continues fuel p).raised
  rw [failed] at raised
  obtain ⟨failing, latest⟩ := raised
  rw [e.withBacktrace_nil] at latest
  exact ⟨failing, List.getLast?_reverse.trans latest⟩

/-- The functions of the calls in the backtrace of an error. -/
def Outcome.failedIn? {α : Type} : Outcome α → Option (List String)
  | .failed e _ => some (e.backtrace.map CallFrame.function)
  | _ => none

def dividingSource : String :=
  "fn g(n: int): int \x7b return 1 / n; \x7d fn f(n: int): int \x7b return g(n - 1); \x7d print(f(1));"

theorem division_has_active_calls : ∃ p, Source.checked dividingSource = .ok p ∧
    ((Machine.fresh 10 {}).evaluate 100 p).failedIn? = some ["g", "f"] ∧
    ((Machine.fresh 10 {}).trace 100 p).1 = (Machine.fresh 10 {}).evaluate 100 p ∧
    (∀ visit ∈ ((Machine.fresh 10 {}).trace 100 p).2,
      visit.machine.calls.backtrace = visit.active) ∧
    ∀ e after, (Machine.fresh 10 {}).evaluate 100 p = .failed e after → ∃ failing,
      ((Machine.fresh 10 {}).trace 100 p).2.getLast? =
        some ⟨.raise e.kind e.span, e.backtrace, failing⟩ := by
  have accepted : (Source.checked dividingSource).toOption.any (fun p =>
      ((Machine.fresh 10 {}).evaluate 100 p).failedIn? == some ["g", "f"]) = true := by
    decide +kernel
  obtain ⟨p, checked, failed⟩ := ok_of_any accepted
  exact ⟨p, checked, beq_iff_eq.mp failed,
    backtrace_is_active_calls (Machine.fresh_idle 10 {}) 100 p⟩

end Lu
