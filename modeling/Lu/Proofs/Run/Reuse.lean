import Lu.Proofs.Run.Finishing
import Lu.Proofs.Run.Guarantees

namespace Lu

/-!
A machine that has run programs is as good as a new one.
-/

/-- The run has come back with a value or with an error. -/
def Returned : Except Stop Value → Prop
  | .ok _ | .error (.error _) => True
  | .error (.fault _) | .error .outOfFuel => False

instance : DecidablePred Returned
  | .ok _ | .error (.error _) => .isTrue trivial
  | .error (.fault _) | .error .outOfFuel => .isFalse id

/-- The machines that a fresh one can become by running programs one after the other, each of which
returns. -/
inductive Machine.Used (limit : Nat) (env : Environment) : Machine → Prop
  | fresh : Used limit env (Machine.fresh limit env)
  | run {machine : Machine} {fuel : Nat} {p : Program} : Used limit env machine →
      Returned (machine.run fuel p).1 → Used limit env (machine.run fuel p).2

namespace Machine

variable {limit : Nat} {env : Environment} {machine : Machine}

/-- Whatever a run leaves unfinished when it returns, the machine keeps nothing of it. -/
theorem Idle.run (idle : machine.Idle limit) {fuel : Nat} {p : Program}
    (returned : Returned (machine.run fuel p).1) : (machine.run fuel p).2.Idle limit := by
  have leads := machine.run_leads fuel p
  refine ⟨?_, leads.calls.trans idle.calls⟩
  unfold Machine.run at returned ⊢
  cases ended : machine.evaluate fuel p with
  | done value after => exact evaluate_idle idle.operands (congrArg Outcome.after? ended)
  | failed e after => exact evaluate_idle idle.operands (congrArg Outcome.after? ended)
  | faulted | outOfFuel =>
    rw [ended] at returned
    exact returned.elim

theorem Used.idle (used : machine.Used limit env) : machine.Idle limit := by
  induction used with
  | fresh => exact fresh_idle limit env
  | run _ returned ih => exact ih.run returned

/-- The programs so far have read the input from the front, and only added to the output. -/
theorem Used.leads (used : machine.Used limit env) : env.Leads machine.env := by
  induction used with
  | fresh => exact .refl env
  | @run machine fuel p _ _ ih => exact ih.trans (machine.run_leads fuel p).env

end Machine

/-- On a machine that has run other programs a program does what it does on a new one that has the rest
of the input: it gives the same value or error, reads the same lines, and adds the same lines to
the output. -/
theorem used_machine_runs_as_fresh {limit : Nat} {env : Environment} {machine : Machine}
    (used : machine.Used limit env) (fuel : Nat) (p : Program) :
    let reused := machine.run fuel p
    let fresh := (Machine.fresh limit { input := machine.env.input }).run fuel p
    reused.1 = fresh.1 ∧
      (∃ consumed, machine.env.input = consumed ++ fresh.2.env.input ∧
        reused.2.env.input = fresh.2.env.input) ∧
      reused.2.env.output = machine.env.output ++ fresh.2.env.output ∧
      env.output.toList <+: machine.env.output.toList := by
  intro reused fresh
  have ready : (Comparison.again (fun _ => True) limit machine.env.output 0).Ready
      (Machine.fresh limit { input := machine.env.input }) machine :=
    ⟨Machine.fresh_idle _ _, used.idle, rfl, by simp [Machine.fresh, Comparison.again]⟩
  have leads := (Machine.fresh limit { input := machine.env.input }).run_leads fuel p
  obtain ⟨consumed, read⟩ := leads.env.input
  obtain ⟨result, input, output⟩ | ⟨e, -, gives, -⟩ | ⟨-, more⟩ :=
    ready.run_cases fuel p.rearranged_self (p.within_of_all fun _ => trivial)
  · simp only [Comparison.again, Nat.zero_add] at result input output
    exact ⟨result, ⟨consumed, read.symm, input⟩, output, used.leads.output⟩
  · exact gives.elim
  · exact (Nat.lt_irrefl 0 more).elim

/-- A program that fails while calls are active and operands wait. -/
def deepSource : String :=
  "let x = input(); fn f(n: int): int \x7b prints(x); return 1 + 2 * f(n + 1); \x7d print(3 * f(0));"

def echoSource : String := "prints(input()); let y = input();"

/-- After a run that has ended in an error the next one reads the line that is left, and fails on the
line that is missing, as it would on a new machine. -/
theorem deep_then_echo : ∃ deep echo, Source.checked deepSource = .ok deep ∧
    Source.checked echoSource = .ok echo ∧
    let machine := ((Machine.fresh 3 { input := ["one", "two"] }).run 100 deep).2
    let reused := machine.run 100 echo
    let fresh := (Machine.fresh 3 { input := machine.env.input }).run 100 echo
    reused.1 = fresh.1 ∧
      (∃ consumed, machine.env.input = consumed ++ fresh.2.env.input ∧
        reused.2.env.input = fresh.2.env.input) ∧
      reused.2.env.output = machine.env.output ++ fresh.2.env.output ∧
      (#[] : Array String).toList <+: machine.env.output.toList := by
  have accepted : (Source.checked deepSource).toOption.any (fun deep =>
      Returned ((Machine.fresh 3 { input := ["one", "two"] }).run 100 deep).1) = true := by
    decide +kernel
  have accepted' : (Source.checked echoSource).toOption.any (fun _ => true) = true := by
    decide +kernel
  obtain ⟨deep, checked, returned⟩ := ok_of_any accepted
  obtain ⟨echo, checked', -⟩ := ok_of_any accepted'
  exact ⟨deep, echo, checked, checked',
    used_machine_runs_as_fresh (.run .fresh (of_decide_eq_true returned)) 100 echo⟩

end Lu
