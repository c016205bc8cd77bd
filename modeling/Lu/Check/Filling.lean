import Lu.Check.Error

namespace Lu

/-!
The nodes of a tree are shared: what a step of the analysis stores in a slot is there for whoever
comes to the node later, also in the same step. So a step carries along which slots it has filled
already, laid out like the tree that it walks, and to fill one of them again is a fault.
-/

/-- The slots that a step has filled: at a node, and in the parts of the node. -/
inductive Filled where
  | nothing
  | node (slots : List String) (parts : Nat → Filled)

namespace Filled

def slots : Filled → List String
  | .nothing => []
  | .node slots _ => slots

def part : Filled → Nat → Filled
  | .nothing, _ => .nothing
  | .node _ parts, index => parts index

def mark (filled : Filled) (slot : String) : Filled := .node (slot :: filled.slots) filled.part

def setPart (filled : Filled) (index : Nat) (inner : Filled) : Filled :=
  .node filled.slots fun other => if other = index then inner else filled.part other

end Filled

/-- A visit to a node by a step that fills slots. -/
abbrev Filling (α : Type) := StateT Filled Check α

namespace Filling

variable {name : String} {α : Type}

/-- Stores the value in a slot of the node that is visited. The slot must be empty in the tree that
the step was given, and the step must not have come to fill it before. -/
def fill (slot : Attribute name α) (value : α) : Filling (Attribute name α) := fun filled =>
  if name ∈ filled.slots then .error (.fault (.alreadySet name))
  else do return (← Check.lift (slot.set value), filled.mark name)

/-- Visits a part of the node. -/
def inside (index : Nat) (visit : Filling α) : Filling α := fun filled => do
  let (result, inner) ← visit (filled.part index)
  return (result, filled.setPart index inner)

/-- What the step gives that begins with this visit. -/
def start (visit : Filling α) : Check α := Prod.fst <$> visit .nothing

end Filling

end Lu
