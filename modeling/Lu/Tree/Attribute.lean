namespace Lu

/-- A broken promise inside the interpreter: no input text is at fault, and no error of the
language is reported for it. -/
inductive Fault where
  | unset (slot : String)
  | alreadySet (slot : String)
  | formatOutOfRange
deriving DecidableEq, Repr

def Fault.message : Fault → String
  | .unset slot => s!"attribute `{slot}` is not set"
  | .alreadySet slot => s!"attribute `{slot}` already has a value"
  | .formatOutOfRange => "Formatting argument out of range"

/-- A slot of a tree node that one step of the analysis fills in, once. The name says which
slot it is. -/
structure Attribute (name : String) (α : Type) where
  value? : Option α := none
deriving DecidableEq, Repr, Inhabited

namespace Attribute

variable {name : String} {α : Type}

def unset : Attribute name α := ⟨none⟩

def isSet (slot : Attribute name α) : Bool := slot.value?.isSome

def get (slot : Attribute name α) : Except Fault α :=
  match slot.value? with
  | some value => .ok value
  | none => .error (.unset name)

/-- Fills the slot as the tree shows it. A step of the analysis keeps a record beside it of the slots
that it has filled itself. -/
def set (slot : Attribute name α) (value : α) : Except Fault (Attribute name α) :=
  match slot.value? with
  | some _ => .error (.alreadySet name)
  | none => .ok ⟨some value⟩

@[simp] theorem get_eq_ok {slot : Attribute name α} {value : α} :
    slot.get = .ok value ↔ slot.value? = some value := by
  unfold get
  split <;> simp_all

@[simp] theorem set_eq_ok {slot filled : Attribute name α} {value : α} :
    slot.set value = .ok filled ↔ slot.value? = none ∧ filled = ⟨some value⟩ := by
  unfold set
  split <;> simp_all [eq_comm]

/-- How the slot is shown: its value, or its name if there is none. -/
def describe (slot : Attribute name α) (text : α → String) : String :=
  match slot.value? with
  | some value => text value
  | none => s!"<unset {name}>"

end Attribute

end Lu
