import Lu.Proofs.Run.Erasure

namespace Lu

/-!
The history of a run: which declarations the variables and functions in the scopes come from, and what
has been evaluated, looked up and called so far.
-/

/-- What the statements of one scope have declared, the latest first. -/
structure Layer where
  owners : List (String × VariableSymbol) := []
  functions : List (Nat × FunctionDecl) := []

/-- The declarations behind the scopes of a context, and its frames. -/
structure Layout where
  layers : Array Layer
  frames : List Frame

namespace Layout

def initial : Layout := ⟨#[{}], []⟩

def push (layout : Layout) : Layout := { layout with layers := layout.layers.push {} }

def pushFrame (layout : Layout) (staticLink : Nat) : Layout :=
  { layers := layout.layers.push {}
    frames := .call layout.layers.size staticLink (Context.frameAt staticLink layout.frames)
      :: layout.frames }

/-- Changes the layer of the innermost scope. -/
def modifyInnermost (layout : Layout) (change : Layer → Layer) : Layout :=
  { layout with layers := layout.layers.modify (layout.layers.size - 1) change }

def declare (layout : Layout) (name : String) (symbol : VariableSymbol) : Layout :=
  layout.modifyInnermost fun layer => { layer with owners := (name, symbol) :: layer.owners }

def define (layout : Layout) (decl : FunctionDecl) : Layout :=
  layout.modifyInnermost fun layer =>
    { layer with functions := (decl.id, decl) :: layer.functions }

end Layout

inductive Event where
  /-- The expression has been evaluated to the value. -/
  | evaluated (e : Expr) (value : Value)
  /-- The name of a reference or an assignment target, which carries the symbol, is about to be
  looked up. -/
  | referred (name : String) (symbol : Attribute "variable declaration" VariableSymbol)
      (layout : Layout) (context : Context)
  /-- The function is about to be looked up for a call. -/
  | called (symbol : FunctionSymbol) (context : Context)

structure History where
  layout : Layout := Layout.initial
  events : List Event := []

/-- The history with an event more. -/
def History.add (history : History) (event : Event) : History :=
  { history with events := event :: history.events }

/-- What is declared inside a scope or a frame is forgotten after it. -/
def watching : Recorder History where
  begins task machine history :=
    match task with
    | .callUser symbol _ _ => history.add (.called symbol machine.context)
    | .expr _ | .stmt _ | .block _ | .raise .. => history
  evaluated e machine history :=
    match machine.operands with
    | value :: _ => history.add (.evaluated e value)
    | [] => history
  refers name symbol machine history :=
    history.add (.referred name symbol history.layout machine.context)
  binds name symbol history := { history with layout := history.layout.declare name symbol }
  defines decl history := { history with layout := history.layout.define decl }
  entersScope history := { history with layout := history.layout.push }
  entersFrame staticLink history := { history with layout := history.layout.pushFrame staticLink }
  entersCall _ history := history
  leaves before history := { history with layout := before.layout }

/-- A piece of a run with its history. -/
abbrev Watched (α : Type) := Recorded History α

namespace Watched

variable {α : Type}

/-- Errors leave nothing in the history. -/
theorem step_apply (piece : Run α) (history : History) (machine : Machine) :
    Recorded.step watching piece history machine = (piece machine, history) := by
  unfold Recorded.step
  cases piece machine <;> rfl

theorem evaluated_eq {history : History} {machine : Machine} {e : Expr} {value : Value}
    {rest : List Value} (top : machine.operands = value :: rest) :
    watching.evaluated e machine history = history.add (.evaluated e value) := by
  simp only [watching, top]

/-- The beginning of an expression leaves nothing either. -/
theorem visit_expr (e : Expr) (piece : Watched α) :
    Recorded.visit watching (.expr e) piece = piece := rfl

end Watched

/-- Runs a program as `Machine.evaluate` does, and gives the history of the run. -/
def Machine.watch (fuel : Nat) (p : Program) (machine : Machine) : Outcome Value × History :=
  machine.record watching {} fuel p

/-- To watch a run does not change how it ends. -/
theorem Machine.watch_fst (fuel : Nat) (p : Program) (machine : Machine) :
    (machine.watch fuel p).1 = machine.evaluate fuel p :=
  machine.record_fst watching {} fuel p

end Lu
