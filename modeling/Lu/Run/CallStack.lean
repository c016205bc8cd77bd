import Lu.Run.Error

namespace Lu

/-- The calls that have not returned, the innermost first, and how many there may be. -/
structure CallStack where
  frames : List CallFrame := []
  depth : Nat := 0
  limit : Nat
  depth_eq : depth = frames.length := by rfl
deriving Repr

namespace CallStack

def ofLimit (limit : Nat) : CallStack := { limit }

instance : Inhabited CallStack := ⟨ofLimit 0⟩

/-- Enters a call, unless the limit is reached. -/
def push (stack : CallStack) (frame : CallFrame) : Except RuntimeErrorKind CallStack :=
  if stack.limit ≤ stack.depth then .error (.stackOverflow stack.limit)
  else .ok {
    frames := frame :: stack.frames
    depth := stack.depth + 1
    limit := stack.limit
    depth_eq := by simp [stack.depth_eq] }

def pop (stack : CallStack) : CallStack :=
  { frames := stack.frames.tail
    depth := stack.depth - 1
    limit := stack.limit
    depth_eq := by simp [stack.depth_eq] }

/-- The active calls, the innermost first. -/
def backtrace (stack : CallStack) : List CallFrame := stack.frames

end CallStack

end Lu
