import Lu.Check.Agreement
import Lu.Check.Names
import Lu.Check.Placement
import Lu.Check.Typing
import Lu.Run.Natives

namespace Lu

/-- The steps of the analysis. Each relies on those before it. -/
inductive AnalysisStep where
  | names
  | placement
  | types
  | agreement
deriving DecidableEq, Repr

namespace AnalysisStep

def all : List AnalysisStep := [.names, .placement, .types, .agreement]

/-- Takes a step; gives the program with the slots that it fills. -/
def apply (step : AnalysisStep) (program : Program) : Check Program :=
  match step with
  | .names => program.resolveNames Native.signatures
  | .placement => do
    program.checkPlacement
    return program
  | .types => program.resolveTypes
  | .agreement => do
    program.checkTypes
    return program

end AnalysisStep

/-- Takes the steps in order, up to the first error. -/
def Program.analyse (steps : List AnalysisStep) (program : Program) : Check Program :=
  steps.foldlM (fun program step => step.apply program) program

/-- The program with all slots filled, if it obeys the static rules. -/
def Program.check (program : Program) : Check Program := program.analyse AnalysisStep.all

end Lu
