import Lu.Proofs.Run.Erasure

namespace Lu

/-!
The trace of a run: the states that it has come through, each with the calls that are active there.
-/

/-- A task about to be done: the active calls, the innermost first, and the machine. -/
structure Visit where
  task : Task
  active : List CallFrame
  machine : Machine

/-- The calls that are active, and the visits so far, the latest first. -/
structure Trail where
  active : List CallFrame := []
  visits : List Visit := []

def Trail.visit (trail : Trail) (task : Task) (machine : Machine) : Trail :=
  { trail with visits := ⟨task, trail.active, machine⟩ :: trail.visits }

/-- A call is active from when it is entered until it is left. -/
def tracing : Recorder Trail where
  begins task machine trail := trail.visit task machine
  evaluated _ _ trail := trail
  refers _ _ _ trail := trail
  binds _ _ trail := trail
  defines _ trail := trail
  entersScope trail := trail
  entersFrame _ trail := trail
  entersCall frame trail := { trail with active := frame :: trail.active }
  leaves before trail := { trail with active := before.active }

/-- A piece of a run with its trail. -/
abbrev Traced (α : Type) := Recorded Trail α

/-- Runs a program as `Machine.evaluate` does, and gives the trace of the run. -/
def Machine.trace (fuel : Nat) (p : Program) (machine : Machine) : Outcome Value × List Visit :=
  (machine.record tracing {} fuel p).map id (·.visits.reverse)

/-- To trace a run does not change how it ends. -/
theorem Machine.trace_fst (fuel : Nat) (p : Program) (machine : Machine) :
    (machine.trace fuel p).1 = machine.evaluate fuel p :=
  machine.record_fst tracing {} fuel p

end Lu
