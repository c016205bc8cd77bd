import Lu.Proofs.Check.Rearranging
import Lu.Proofs.Run.Finishing
import Lu.Proofs.Run.Guarantees

namespace Lu

/-!
The order of functions that follow each other makes no difference, neither to the checker nor to the
run.
-/

/-- A run beside that of the rearranged program, as long as nothing is defined twice. -/
def Comparison.reordered (limit : Nat) : Comparison where
  Place _ := True
  swaps := True
  printed := #[]
  limit := limit
  limit' := limit
  spare := 0
  GivesUp kind := ∃ name, kind = .duplicateDefinition name
  limit_le := Nat.le_refl limit
  overflow := .inl rfl
  duplicate _ name := ⟨name, rfl⟩

/-- A sound program runs like any that differs from it in the order of functions. -/
theorem Program.Sound.run_reordered {p p' : Program} (sound : p.Sound False)
    (rearranged : p.Rearranged True p') (fuel limit : Nat) (env : Environment) :
    ((Machine.fresh limit env).run fuel p').1 = ((Machine.fresh limit env).run fuel p).1 ∧
      ((Machine.fresh limit env).run fuel p').2.env = ((Machine.fresh limit env).run fuel p).2.env := by
  have idle := Machine.fresh_idle limit env
  have ready : (Comparison.reordered limit).Ready (Machine.fresh limit env)
      (Machine.fresh limit env) := ⟨idle, idle, rfl, by simp [Comparison.reordered]⟩
  obtain ⟨result, input, output⟩ | ⟨e, failed, ⟨name, duplicate⟩, -⟩ | ⟨-, more⟩ :=
    ready.run_cases fuel rearranged (p.within_of_all fun _ => trivial)
  · simp only [Comparison.reordered, Nat.zero_add, Array.empty_append] at result input output
    exact ⟨result, congrArg₂ Environment.mk input output⟩
  · have ends := Machine.evaluate_endsIn sound fuel idle.operands
    unfold Machine.run at failed
    split at failed
    · cases failed
    · rename_i ended
      cases failed
      rw [ended] at ends
      simp only [Outcome.EndsIn, duplicate, RuntimeErrorKind.OfValues,
        RuntimeErrorKind.OfTypes] at ends
      tauto
    · cases failed
    · cases failed
  · exact (Nat.lt_irrefl 0 more).elim

/-- Wherever neighbouring functions of a program change places, the checker accepts the program as
before. What it accepts differs in nothing but that order: every name means the same and every
expression has the same type. And the program runs as before. -/
theorem function_order_is_immaterial {source : String} {p p' : Program}
    (parsed : Source.program source = .ok p) (rearranged : p.Rearranged True p') :
    ((∃ checked, p.check = .ok checked) ↔ ∃ checked', p'.check = .ok checked') ∧
      ∀ checked checked', p.check = .ok checked → p'.check = .ok checked' →
        checked.Rearranged True checked' ∧ ∀ fuel limit env,
          let run := (Machine.fresh limit env).run fuel checked
          let run' := (Machine.fresh limit env).run fuel checked'
          run'.1 = run.1 ∧ run'.2.env = run.2.env := by
  have together := rearranged.analyse AnalysisStep.all
  refine ⟨⟨?_, ?_⟩, fun checked checked' accepted accepted' => ?_⟩
  · rintro ⟨checked, accepted⟩
    obtain ⟨checked', accepted', -⟩ := together.forth accepted
    exact ⟨checked', accepted'⟩
  · rintro ⟨checked', accepted'⟩
    obtain ⟨checked, accepted, -⟩ := together.back accepted'
    exact ⟨checked, accepted⟩
  · obtain ⟨_, again, like⟩ := together.forth accepted
    obtain rfl := Except.ok.inj (accepted'.symm.trans again)
    have sound : checked.Sound False :=
      Program.check_sound (Source.program_fresh parsed) (Source.program_distinct parsed) accepted
        nofun
    exact ⟨like, fun fuel limit env => sound.run_reordered like fuel limit env⟩

def paritySource : String :=
  "fn even(n: int): int \x7b if (n == 0) \x7b return 1; \x7d return odd(n - 1); \x7d " ++
  "fn odd(n: int): int \x7b if (n == 0) \x7b return 0; \x7d return even(n - 1); \x7d " ++
  "print(even(3));"

def startsWithPair : List Stmt → Bool
  | .function _ _ :: .function _ _ :: _ => true
  | _ => false

/-- Two functions that call each other change places. -/
theorem parity_reordered : ∃ span span' f g rest whole,
    let p : Program := ⟨.function span f :: .function span' g :: rest, whole⟩
    let p' : Program := ⟨.function span' g :: .function span f :: rest, whole⟩
    Source.program paritySource = .ok p ∧ ∃ checked checked', p.check = .ok checked ∧
      p'.check = .ok checked' ∧ checked.Rearranged True checked' ∧ ∀ fuel limit env,
        let run := (Machine.fresh limit env).run fuel checked
        let run' := (Machine.fresh limit env).run fuel checked'
        run'.1 = run.1 ∧ run'.2.env = run.2.env := by
  have accepted : (Source.program paritySource).toOption.any (fun p =>
      startsWithPair p.statements && p.check.toOption.any fun _ => true) = true := by
    decide +kernel
  obtain ⟨⟨statements, whole⟩, parsed, passed⟩ := ok_of_any accepted
  obtain ⟨pair, check⟩ := Bool.and_eq_true_iff.mp passed
  simp only [startsWithPair] at pair
  split at pair
  · rename_i span f span' g rest
    obtain ⟨checked, check, -⟩ := ok_of_any check
    have rearranged : Program.Rearranged True ⟨.function span f :: .function span' g :: rest, whole⟩
        ⟨.function span' g :: .function span f :: rest, whole⟩ :=
      ⟨rfl, .swap trivial f.rearranged_self g.rearranged_self (Stmt.allRearranged_self rest)⟩
    obtain ⟨accepts, same⟩ := function_order_is_immaterial parsed rearranged
    obtain ⟨checked', check'⟩ := accepts.mp ⟨checked, check⟩
    exact ⟨span, span', f, g, rest, whole, parsed, checked, checked', check, check',
      same checked checked' check check'⟩
  · cases pair

end Lu
