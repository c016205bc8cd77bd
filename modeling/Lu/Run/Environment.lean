namespace Lu

/-- What a program has of the world: the lines it may still read, and those it has printed. -/
structure Environment where
  input : List String := []
  output : Array String := #[]
deriving Inhabited

namespace Environment

/-- The next line of the input. -/
def read (env : Environment) : Option (String × Environment) :=
  match env.input with
  | line :: rest => some (line, { env with input := rest })
  | [] => none

/-- Prints a line. -/
def print (env : Environment) (line : String) : Environment :=
  { env with output := env.output.push line }

/-- Forgets what has been printed. -/
def clear (env : Environment) : Environment := { env with output := #[] }

end Environment

end Lu
