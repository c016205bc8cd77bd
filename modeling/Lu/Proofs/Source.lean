import Lu.Interpreter
import Lu.Proofs.Except

namespace Lu

/-!
The steps from a source text to its program.
-/

namespace Source

theorem tokens_eq_ok {source : String} {found : List Token} :
    tokens source = .ok found ↔ lex source = .ok found := by
  unfold tokens
  cases lex source with
  | ok lexed => rw [mapError_ok, Except.ok.injEq, Except.ok.injEq]
  | error e => exact iff_of_false nofun nofun

theorem program_eq_ok {source : String} {read : Program} : program source = .ok read ↔
    ∃ found, lex source = .ok found ∧ parse? found = some (.ok read) := by
  unfold program
  simp only [bind_eq_ok, tokens_eq_ok]
  refine exists_congr fun found => and_congr_right fun _ => ?_
  cases parse? found with
  | none => simp
  | some result => cases result <;> simp [pure, Except.pure]

end Source

end Lu
