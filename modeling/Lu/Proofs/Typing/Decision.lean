import Lu.Proofs.Check.Faultless
import Lu.Proofs.Typing.Completeness

namespace Lu

/-!
The two steps about types decide the type system.
-/

section

variable {natives : List NativeSignature} {source program typed : Program}

theorem Program.analyse_types_eq_ok :
    program.analyse [.types, .agreement] = .ok typed ↔
      program.resolveTypes = .ok typed ∧ typed.checkTypes = .ok () := by
  rw [Program.analyse_cons_eq_ok]
  constructor
  · rintro ⟨_, atTypes, run⟩
    obtain ⟨_, atAgreement, run⟩ := Program.analyse_cons_eq_ok.mp run
    cases run
    obtain ⟨agrees, rfl⟩ := Check.guard_eq_ok.mp atAgreement
    exact ⟨atTypes, agrees⟩
  · rintro ⟨atTypes, agrees⟩
    exact ⟨_, atTypes, Program.analyse_cons_eq_ok.mpr
      ⟨_, Check.guard_eq_ok.mpr ⟨agrees, rfl⟩, rfl⟩⟩

theorem Program.Elaborates.accepted (elaborates : program.Elaborates typed)
    (filled : AllFilled false program.nodes) :
    program.resolveTypes = .ok typed ∧ typed.checkTypes = .ok () := by
  cases elaborates with
  | mk derived =>
    obtain ⟨atStatements, agrees⟩ := derived.accepted filled
    exact ⟨Program.resolveTypes_eq_ok.mpr ⟨_, atStatements, rfl⟩, agrees none rfl⟩

/-- A program whose names are resolved, and whose jumps and assignments are where they may be, has
a derivation in the type system just if the two steps about types accept it. They leave behind the
types of the derivation, and there is one derivation at most. -/
theorem types_decide_type_system (fresh : source.blank = source)
    (named : source.resolveNames natives = .ok program)
    (placed : program.checkPlacement = .ok ()) :
    (∀ typed, program.analyse [.types, .agreement] = .ok typed ↔ program.Elaborates typed) ∧
      ∀ typed other, program.Elaborates typed → program.Elaborates other → typed = other := by
  have filled := (source.resolveNames_fills natives fresh).of_ok named
  have resolved := (Program.resolveNames_resolved named).1
  refine ⟨fun typed => Program.analyse_types_eq_ok.trans
    ⟨fun ⟨atTypes, agrees⟩ => ?_, fun derived => derived.accepted filled⟩,
    fun typed other derived again => ?_⟩
  · exact Program.resolveTypes_elaborates resolved filled placed atTypes agrees
  · exact Except.ok.inj ((derived.accepted filled).1.symm.trans (again.accepted filled).1)

/-- Promotion, a comparison of strings, a loop from an assignment and a function without a
result. -/
def mixedSource : String :=
  "fn scale(by: float, text: str) \x7b prints(text); return print(1); \x7d " ++
  "fn half(n: int): float \x7b if (n < 0 || \"a\" == \"b\") \x7b return -0.5; \x7d " ++
  "return n * 0.5; \x7d let i: int = 3; " ++
  "for (i = 0; i < 4; i = i + 1) \x7b scale(half(i), itos(i)); \x7d"

theorem mixed_source_elaborates : ∃ tokens source program typed, lex mixedSource = .ok tokens ∧
    parse? tokens = some (.ok source) ∧ source.blank = source ∧
    source.resolveNames Native.signatures = .ok program ∧ program.checkPlacement = .ok () ∧
    program.analyse [.types, .agreement] = .ok typed ∧ program.Elaborates typed := by
  have accepted : (Source.program mixedSource).toOption.any (fun source =>
      (source.resolveNames Native.signatures).toOption.any fun program =>
        program.checkPlacement.toOption.any fun _ =>
          (program.analyse [.types, .agreement]).toOption.any fun _ => true) = true := by
    decide +kernel
  obtain ⟨source, read, accepted⟩ := ok_of_any accepted
  obtain ⟨tokens, lexed, parsed⟩ := Source.program_eq_ok.mp read
  have fresh := parse?_blank parsed
  obtain ⟨program, named, accepted⟩ := ok_of_any accepted
  obtain ⟨⟨⟩, placed, accepted⟩ := ok_of_any accepted
  obtain ⟨typed, run, -⟩ := ok_of_any accepted
  have decided := (types_decide_type_system fresh named placed).1 typed
  exact ⟨tokens, source, program, typed, lexed, parsed, fresh, named, placed, run, decided.mp run⟩

end

end Lu
