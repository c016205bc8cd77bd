namespace Lu

/-- What waits for its turn, in the order in which it came. -/
structure Deferred (α : Type) where
  /-- The latest first. -/
  waiting : List α := []
deriving Repr, Inhabited

namespace Deferred

variable {α : Type}

def toList (queue : Deferred α) : List α := queue.waiting.reverse

def enqueue (queue : Deferred α) (item : α) : Deferred α := ⟨item :: queue.waiting⟩

def size (queue : Deferred α) : Nat := queue.waiting.length

def isEmpty (queue : Deferred α) : Bool := queue.waiting.isEmpty

/-- All that waits; nothing is left. -/
def take (queue : Deferred α) : List α × Deferred α := (queue.toList, {})

@[simp] theorem toList_enqueue (queue : Deferred α) (item : α) :
    (queue.enqueue item).toList = queue.toList ++ [item] := by
  simp [toList, enqueue]

end Deferred

end Lu
