import Lu.Proofs.Parse.Blank
import Lu.Proofs.Parse.Soundness
import Lu.Proofs.Run.Safety
import Lu.Proofs.Scoping.Recorded
import Lu.Proofs.Scoping.Filling
import Lu.Proofs.Source
import Lu.Proofs.Typing.WellTyped

namespace Lu

/-!
What the checker has accepted is sound: after its first two steps as far as names and jumps go, after
all four also as far as types go.
-/

theorem Program.analyse_cons_eq_ok {step : AnalysisStep} {steps : List AnalysisStep}
    {program analysed : Program} :
    program.analyse (step :: steps) = .ok analysed ↔
      ∃ between, step.apply program = .ok between ∧ between.analyse steps = .ok analysed := by
  simp only [analyse, List.foldlM_cons, bind_eq_ok]

/-- A step that only checks leaves the program as it is. -/
theorem Check.guard_eq_ok {check : Check Unit} {program after : Program} :
    (do check; return program : Check Program) = .ok after ↔ check = .ok () ∧ after = program := by
  rw [bind_eq_ok]
  exact ⟨fun ⟨_, passed, same⟩ => ⟨passed, (pure_eq_ok.mp same).symm⟩,
    fun ⟨passed, same⟩ => ⟨(), passed, pure_eq_ok.mpr same.symm⟩⟩

/-- After the first two steps names are resolved, and jumps and assignments are where they may be. -/
theorem Program.analyse_scoped {program analysed : Program} (distinct : program.functionIds.Nodup)
    (run : program.analyse [.names, .placement] = .ok analysed) : analysed.Sound False := by
  obtain ⟨named, atNames, run⟩ := Program.analyse_cons_eq_ok.mp run
  obtain ⟨placed, atPlacement, run⟩ := Program.analyse_cons_eq_ok.mp run
  cases run
  obtain ⟨placement, rfl⟩ := Check.guard_eq_ok.mp atPlacement
  obtain ⟨resolved, ids⟩ := Program.resolveNames_resolved atNames
  exact ⟨resolved, placement, ids ▸ distinct, nofun, nofun⟩

/-- What all steps accept is elaborated from the tree whose names the first one resolves. -/
theorem Program.check_elaborates {program checked : Program} (fresh : program.blank = program)
    (run : program.check = .ok checked) :
    ∃ named, program.resolveNames Native.signatures = .ok named ∧
      named.checkPlacement = .ok () ∧ named.resolveTypes = .ok checked ∧ named.Elaborates checked := by
  obtain ⟨named, atNames, run⟩ := Program.analyse_cons_eq_ok.mp run
  obtain ⟨placed, atPlacement, run⟩ := Program.analyse_cons_eq_ok.mp run
  obtain ⟨typed, atTypes, run⟩ := Program.analyse_cons_eq_ok.mp run
  obtain ⟨agreed, atAgreement, run⟩ := Program.analyse_cons_eq_ok.mp run
  cases run
  obtain ⟨placement, rfl⟩ := Check.guard_eq_ok.mp atPlacement
  obtain ⟨agreement, rfl⟩ := Check.guard_eq_ok.mp atAgreement
  obtain ⟨resolved, -⟩ := Program.resolveNames_resolved atNames
  have filled := (program.resolveNames_fills Native.signatures fresh).of_ok atNames
  exact ⟨_, atNames, placement, atTypes,
    Program.resolveTypes_elaborates resolved filled placement atTypes agreement⟩

/-- After all steps the types are right as well. -/
theorem Program.check_sound {strict : Prop} {program checked : Program}
    (fresh : program.blank = program) (distinct : program.functionIds.Nodup)
    (run : program.check = .ok checked) (uncaptured : strict → checked.uncaptured = true) :
    checked.Sound strict := by
  obtain ⟨named, atNames, placement, atTypes, elaborates⟩ := Program.check_elaborates fresh run
  obtain ⟨resolved, ids⟩ := Program.resolveNames_resolved atNames
  obtain ⟨kept, samePlacement, sameIds⟩ := Program.resolveTypes_keeps atTypes resolved
  exact ⟨kept, samePlacement.trans placement, sameIds.trans ids ▸ distinct,
    fun _ => elaborates.typed, uncaptured⟩

namespace Source

theorem program_fresh {source : String} {p : Program} (run : program source = .ok p) :
    p.blank = p := by
  obtain ⟨tokens, -, parsed⟩ := program_eq_ok.mp run
  exact parse?_blank parsed

/-- The functions of a source text have different numbers. -/
theorem program_distinct {source : String} {p : Program} (run : program source = .ok p) :
    p.functionIds.Nodup := by
  obtain ⟨tokens, lexed, parsed⟩ := program_eq_ok.mp run
  obtain ⟨result, again, reads⟩ := parse?_reads (lex_ends lexed)
  cases parsed.symm.trans again
  rw [(reads p rfl).2]
  exact List.nodup_range

theorem analysed_eq_ok {steps : List AnalysisStep} {source : String} {p : Program}
    (run : analysed steps source = .ok p) :
    ∃ parsed, program source = .ok parsed ∧ parsed.analyse steps = .ok p := by
  obtain ⟨parsed, atProgram, run⟩ := bind_eq_ok.mp run
  refine ⟨parsed, atProgram, ?_⟩
  split at run
  · rename_i atSteps
    cases run
    exact atSteps
  · cases run
  · cases run

theorem analysed_scoped {source : String} {p : Program}
    (run : analysed [.names, .placement] source = .ok p) : p.Sound False := by
  obtain ⟨parsed, atProgram, run⟩ := analysed_eq_ok run
  exact Program.analyse_scoped (program_distinct atProgram) run

theorem checked_elaborates {source : String} {p : Program} (run : checked source = .ok p) :
    ∃ named : Program, named.Elaborates p := by
  obtain ⟨parsed, atProgram, run⟩ := analysed_eq_ok run
  obtain ⟨named, -, -, -, elaborates⟩ := Program.check_elaborates (program_fresh atProgram) run
  exact ⟨named, elaborates⟩

theorem checked_sound {strict : Prop} {source : String} {p : Program}
    (run : checked source = .ok p) (uncaptured : strict → p.uncaptured = true) : p.Sound strict := by
  obtain ⟨parsed, atProgram, run⟩ := analysed_eq_ok run
  exact Program.check_sound (program_fresh atProgram) (program_distinct atProgram) run uncaptured

end Source

end Lu
