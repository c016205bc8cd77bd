namespace Lu

/-- How the search for a number in an ascending array ends. -/
inductive SearchResult where
  /-- The number is at the index. -/
  | exact (index : Nat)
  /-- It is not there, and would go to the index. -/
  | insertion (index : Nat)
deriving DecidableEq, Repr

/-- The last of the entries that is not above the number, or the first of all if there is none. It is
among the `size` entries from `base` on, and every step leaves half of them. -/
def narrow (entries : Array Nat) (number base size : Nat) : Nat :=
  if size ≤ 1 then base
  else
    let middle := base + size / 2
    narrow entries number (if number < entries.getD middle 0 then base else middle) (size - size / 2)
termination_by size

/-- Looks for a number in an ascending array by halving. -/
def search (entries : Array Nat) (number : Nat) : SearchResult :=
  if entries.size = 0 then .insertion 0
  else
    let last := narrow entries number 0 entries.size
    let entry := entries.getD last 0
    if entry = number then .exact last
    else .insertion (if entry < number then last + 1 else last)

end Lu
