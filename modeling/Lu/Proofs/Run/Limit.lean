import Lu.Proofs.Except
import Lu.Proofs.Run.Finishing

namespace Lu

/-!
What the limit on calls is for: a program that does not reach it runs as under any higher one.
-/

/-- A run beside the same run under a limit that is no lower. -/
def Comparison.raised {low high : Nat} (le : low ≤ high) : Comparison where
  Place _ := True
  swaps := False
  printed := #[]
  limit := low
  limit' := high
  spare := 0
  GivesUp kind := kind = .stackOverflow low
  limit_le := le
  overflow := .inr rfl
  duplicate := False.elim

section Limits

variable {low high : Nat} (le : low ≤ high) (env : Environment)
include le

theorem Comparison.raised_ready :
    (Comparison.raised le).Ready (Machine.fresh low env) (Machine.fresh high env) :=
  ⟨Machine.fresh_idle low env, Machine.fresh_idle high env, rfl,
    by simp [Machine.fresh, Comparison.raised]⟩

/-- With the same fuel both runs come to the same, or the lower limit is reached. -/
theorem Machine.run_raised (fuel : Nat) (p : Program) :
    let lower := (Machine.fresh low env).run fuel p
    let higher := (Machine.fresh high env).run fuel p
    higher.1 = lower.1 ∧ higher.2.env = lower.2.env ∨
      (∃ e, lower.1 = .error (.error (.run e)) ∧ e.kind = .stackOverflow low) ∧
        (higher.1 ≠ .error .outOfFuel →
          lower.2.env.output.toList <+: higher.2.env.output.toList) := by
  intro lower higher
  obtain ⟨result, input, output⟩ | ⟨e, failed, overflow, follows⟩ | ⟨-, more⟩ :=
    (Comparison.raised_ready le env).run_cases fuel p.rearranged_self
      (p.within_of_all fun _ => trivial)
  · simp only [Comparison.raised, Nat.zero_add, Array.empty_append] at result input output
    exact .inl ⟨result, congrArg₂ Environment.mk input output⟩
  · simp only [Comparison.Follows, Comparison.raised, Nat.zero_add, Array.empty_append] at follows
    exact .inr ⟨⟨e, failed, overflow⟩, follows⟩
  · exact (Nat.lt_irrefl 0 more).elim

end Limits

/-- A program that runs to an end other than a stack overflow comes to the same under every higher
limit. In a stack overflow as many calls are active as there may be, and what was printed is
the beginning of what a higher limit lets the program print. -/
theorem higher_limit_is_harmless {low high : Nat} (le : low ≤ high) (p : Program) (env : Environment)
    {result : Except Stop Value} {after : Environment}
    (finishes : (Machine.fresh low env).Finishes p result after) :
    ((∀ e limit, result = .error (.error (.run e)) → e.kind ≠ .stackOverflow limit) →
        (Machine.fresh high env).Finishes p result after) ∧
      ∀ e limit, result = .error (.error (.run e)) → e.kind = .stackOverflow limit →
        limit = low ∧ e.backtrace.length = low ∧
          ∀ result' after', (Machine.fresh high env).Finishes p result' after' →
            after.output.toList <+: after'.output.toList := by
  refine ⟨fun calm => ?_, fun e limit failed overflow => ?_⟩
  · obtain ⟨finished, fuel, rfl, rfl⟩ := finishes
    obtain ⟨result, same⟩ | ⟨⟨e, failed, overflow⟩, -⟩ := Machine.run_raised le env fuel p
    · exact ⟨finished, fuel, result, same⟩
    · exact (calm e low failed overflow).elim
  · obtain ⟨-, enough, same⟩ := (Machine.fresh_idle low env).finishes_iff.mp finishes
    obtain ⟨-, -, proper⟩ := (Comparison.raised_ready le env).run_proper enough p.rearranged_self
      (p.within_of_all fun _ => trivial) ((same enough (Nat.le_refl _)).1.trans failed)
    obtain ⟨atLimit, length⟩ := proper limit overflow
    refine ⟨atLimit, length, fun result' after' finishes' => ?_⟩
    -- both runs are looked at with fuel that is enough for either
    obtain ⟨finished', enough', same'⟩ := (Machine.fresh_idle high env).finishes_iff.mp finishes'
    obtain ⟨-, atEnv⟩ := same (max enough enough') (Nat.le_max_left ..)
    obtain ⟨atResult', atEnv'⟩ := same' (max enough enough') (Nat.le_max_right ..)
    have cases := Machine.run_raised le env (max enough enough') p
    simp only [atEnv, atEnv', atResult'] at cases
    obtain ⟨-, same⟩ | ⟨-, follows⟩ := cases
    · subst same
      exact List.prefix_rfl
    · exact follows finished'

/-- The limit on calls that a run has overflowed, if it has. -/
def overflown? : Except Stop Value → Option Nat
  | .error (.error (.run e)) =>
    match e.kind with
    | .stackOverflow limit => some limit
    | _ => none
  | _ => none

theorem overflown?_eq_some {result : Except Stop Value} {limit : Nat}
    (found : overflown? result = some limit) :
    ∃ e, result = .error (.error (.run e)) ∧ e.kind = .stackOverflow limit := by
  unfold overflown? at found
  split at found
  · rename_i e
    split at found
    · rename_i kind
      cases found
      exact ⟨e, rfl, kind⟩
    · cases found
  · cases found

def countdownSource : String :=
  "fn f(n: int): int \x7b print(n); if (n == 0) \x7b return 0; \x7d return f(n - 1); \x7d print(f(3));"

/-- Three calls are too few for the countdown, and what it prints until then is the beginning of what it
prints with ten. -/
theorem countdown_overflows : ∃ p result after e, Source.checked countdownSource = .ok p ∧
    (Machine.fresh 3 {}).Finishes p result after ∧ result = .error (.error (.run e)) ∧
    e.kind = .stackOverflow 3 ∧ e.backtrace.length = 3 ∧
    ∀ result' after', (Machine.fresh 10 {}).Finishes p result' after' →
      after.output.toList <+: after'.output.toList := by
  have accepted : (Source.checked countdownSource).toOption.any (fun p =>
      overflown? ((Machine.fresh 3 {}).run 100 p).1 == some 3) = true := by decide +kernel
  obtain ⟨p, checked, failed⟩ := ok_of_any accepted
  obtain ⟨e, ended, overflow⟩ := overflown?_eq_some (beq_iff_eq.mp failed)
  have finishes : (Machine.fresh 3 {}).Finishes p (.error (.error (.run e)))
      ((Machine.fresh 3 {}).run 100 p).2.env := ⟨by simp, 100, ended, rfl⟩
  obtain ⟨-, length, printed⟩ :=
    (higher_limit_is_harmless (by decide : 3 ≤ 10) p {} finishes).2 e 3 rfl overflow
  exact ⟨p, _, _, e, checked, finishes, rfl, overflow, length, printed⟩

end Lu
