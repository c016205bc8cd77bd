namespace Lu

/-- The types of values. -/
inductive Ty where
  | int
  | float
  | str
  /-- What a statement or a function without a result gives. -/
  | void
  /-- The type of the literal `nil`. -/
  | nil
deriving DecidableEq, Repr, Inhabited

namespace Ty

/-- The name in annotations and messages. -/
def name : Ty → String
  | .int => "int"
  | .float => "float"
  | .str => "str"
  | .void => "void"
  | .nil => "nil"

/-- Every type, in the order in which messages list them. -/
def all : List Ty := [.int, .float, .str, .void, .nil]

/-- The types that an annotation can name. -/
def annotatable : List Ty := [.int, .float, .str, .void]

def ofName? (name : String) : Option Ty := all.find? (·.name == name)

def isNumeric : Ty → Bool
  | .int | .float => true
  | _ => false

/-- A value of the second type may stand where the first is expected. Nothing may stand for
`void` or `nil`, and they may stand for nothing. -/
def accepts : Ty → Ty → Bool
  | .int, .int | .float, .float | .str, .str => true
  | _, _ => false

theorem accepts_iff {expected found : Ty} :
    expected.accepts found = true ↔ expected = found ∧ found ≠ .void ∧ found ≠ .nil := by
  cases expected <;> cases found <;> decide

/-- The type of an arithmetic result: one float operand makes it a float. -/
def promote? : Ty → Ty → Option Ty
  | .int, .int => some .int
  | .int, .float | .float, .int | .float, .float => some .float
  | _, _ => none

end Ty

end Lu
