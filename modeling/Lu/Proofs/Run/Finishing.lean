import Lu.Proofs.Run.Compared

namespace Lu

/-!
Runs side by side from beginning to end, and what a run comes to if it has all the fuel it needs.
-/

namespace Comparison

variable {c : Comparison}

/-- Both runs come to the same. -/
structure Agree (c : Comparison) (ended ended' : Except Stop Value × Machine) : Prop where
  result : ended'.1 = ended.1
  input : ended'.2.env.input = ended.2.env.input
  output : ended'.2.env.output = c.printed ++ ended.2.env.output

section Runs

variable {m m' : Machine} {p p' : Program} (ready : c.Ready m m') (fuel : Nat)
  (rearranged : p.Rearranged c.swaps p') (within : p.Within c.Place)
include ready rearranged within

/-- What becomes of two runs: they agree, or the first one has given up, or it has starved. -/
theorem Ready.run_cases :
    c.Agree (m.run fuel p) (m'.run (c.spare + fuel) p') ∨
      (∃ e, (m.run fuel p).1 = .error (.error (.run e)) ∧ c.GivesUp e.kind ∧
        ((m'.run (c.spare + fuel) p').1 ≠ .error .outOfFuel →
          c.Follows (m.run fuel p).2 (m'.run (c.spare + fuel) p').2)) ∨
      (m.run fuel p).1 = .error .outOfFuel ∧ 0 < c.spare := by
  have ends := ready.evaluate_ends fuel rearranged within
  unfold Machine.run
  generalize m.evaluate fuel p = outcome, m'.evaluate (c.spare + fuel) p' = outcome' at ends ⊢
  cases ends with
  | done alike => exact .inl ⟨rfl, alike.input, alike.output⟩
  | failed proper alike => exact .inl ⟨rfl, alike.input, alike.output⟩
  | faulted alike => exact .inl ⟨rfl, alike.input, alike.output⟩
  | outOfFuel => exact .inl ⟨rfl, ready.input, ready.output⟩
  | starved more => exact .inr (.inr ⟨rfl, more⟩)
  | gaveUp gives proper follows =>
    refine .inr (.inl ⟨_, rfl, gives, fun finished => ?_⟩)
    cases outcome' with
    | done | failed | faulted => exact follows
    | outOfFuel => exact (finished rfl).elim

/-- An error that a run ends in points into the program, and so do the calls around it. -/
theorem Ready.run_proper {e : RuntimeError} (failed : (m.run fuel p).1 = .error (.error (.run e))) :
    c.Place e.span ∧ (∀ frame ∈ e.backtrace, c.Place frame.span) ∧
      ∀ limit, e.kind = .stackOverflow limit → limit = c.limit ∧ e.backtrace.length = c.limit := by
  have ends := ready.evaluate_ends fuel rearranged within
  have calls := (m.run_leads fuel p).calls
  rw [ready.idle.calls] at calls
  unfold Machine.run at failed calls
  have places (after : Machine) (proper : c.Proper e after.calls)
      (givenBack : after.calls = .ofLimit c.limit) :
      c.Place e.span ∧ (∀ frame ∈ e.backtrace, c.Place frame.span) ∧
        ∀ limit, e.kind = .stackOverflow limit →
          limit = c.limit ∧ e.backtrace.length = c.limit := by
    have whole : e.withBacktrace after.calls.backtrace = e := by
      rw [givenBack]
      exact e.withBacktrace_nil
    have backtrace := proper.backtrace
    have overflow := proper.overflow
    rw [whole] at backtrace overflow
    exact ⟨proper.span, backtrace, overflow⟩
  generalize m.evaluate fuel p = outcome, m'.evaluate (c.spare + fuel) p' = outcome'
    at ends failed calls
  cases ends with
  | failed proper =>
    cases failed
    exact places _ proper calls
  | gaveUp _ proper =>
    cases failed
    exact places _ proper calls
  | done | faulted | outOfFuel | starved => cases failed

end Runs

/-- A run beside the same run, which finds something printed and has more fuel. -/
def again (place : Span → Prop) (limit : Nat) (printed : Array String) (spare : Nat) : Comparison where
  Place := place
  swaps := False
  printed := printed
  limit := limit
  limit' := limit
  spare := spare
  GivesUp _ := False
  limit_le := Nat.le_refl limit
  overflow := .inl rfl
  duplicate := False.elim

theorem again_ready (place : Span → Prop) {limit : Nat} (spare : Nat) {machine : Machine}
    (idle : machine.Idle limit) : (again place limit #[] spare).Ready machine machine :=
  ⟨idle, idle, rfl, by simp [again]⟩

end Comparison

namespace Machine

/-- With enough fuel the run of the program has this result and leaves this environment. -/
def Finishes (machine : Machine) (p : Program) (result : Except Stop Value) (env : Environment) :
    Prop :=
  result ≠ .error .outOfFuel ∧
    ∃ fuel, (machine.run fuel p).1 = result ∧ (machine.run fuel p).2.env = env

variable {limit : Nat} {machine : Machine} {p : Program}

/-- A run that has had enough fuel comes to the same with more. -/
theorem Idle.run_more (idle : machine.Idle limit) {fuel : Nat}
    (finished : (machine.run fuel p).1 ≠ .error .outOfFuel) (spare : Nat) :
    (machine.run (spare + fuel) p).1 = (machine.run fuel p).1 ∧
      (machine.run (spare + fuel) p).2.env = (machine.run fuel p).2.env := by
  have ready := Comparison.again_ready (fun _ => True) spare idle
  obtain ⟨result, input, output⟩ | ⟨e, -, gives, -⟩ | ⟨starved, -⟩ :=
    ready.run_cases fuel p.rearranged_self (p.within_of_all fun _ => trivial)
  · refine ⟨result, ?_⟩
    simp only [Comparison.again, Array.empty_append] at output
    exact congrArg₂ Environment.mk input output
  · exact gives.elim
  · exact (finished starved).elim

/-- An error that a run ends in points into the program, and so do the calls around it. -/
theorem Idle.run_points (idle : machine.Idle limit) {place : Span → Prop} (within : p.Within place)
    {fuel : Nat} {e : RuntimeError} (failed : (machine.run fuel p).1 = .error (.error (.run e))) :
    place e.span ∧ ∀ frame ∈ e.backtrace, place frame.span := by
  have ready := Comparison.again_ready place 0 idle
  obtain ⟨here, calls, -⟩ := ready.run_proper fuel p.rearranged_self within failed
  exact ⟨here, calls⟩

/-- All fuel from some amount on gives what the run finishes with. -/
theorem Idle.finishes_iff (idle : machine.Idle limit) {result : Except Stop Value}
    {env : Environment} :
    machine.Finishes p result env ↔ result ≠ .error .outOfFuel ∧ ∃ enough, ∀ fuel, enough ≤ fuel →
      (machine.run fuel p).1 = result ∧ (machine.run fuel p).2.env = env := by
  refine and_congr_right fun finished => ⟨?_, ?_⟩
  · rintro ⟨enough, rfl, rfl⟩
    refine ⟨enough, fun fuel le => ?_⟩
    have more := idle.run_more finished (fuel - enough)
    rwa [Nat.sub_add_cancel le] at more
  · rintro ⟨enough, same⟩
    exact ⟨enough, same enough (Nat.le_refl _)⟩

end Machine

end Lu
