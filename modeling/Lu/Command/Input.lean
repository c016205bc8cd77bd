namespace Lu

/-- Takes the line breaks off the end of a line. -/
def trimLineBreaks (line : List Char) : List Char :=
  (line.reverse.dropWhile fun c => c = '\n' ∨ c = '\r').reverse

/-- The lines of a byte sequence, without the newlines that end them. A last line without a newline
counts if it is not empty. -/
def byteLines (bytes : List UInt8) : List (List UInt8) := go bytes []
where
  go : List UInt8 → List UInt8 → List (List UInt8)
    | [], [] => []
    | [], line => [line.reverse]
    | byte :: rest, line => if byte = 10 then line.reverse :: go rest [] else go rest (byte :: line)

/-- The lines of the standard input as a program reads them. Bytes that are no text are the end of
the input. -/
def inputLines (bytes : ByteArray) : List String := go (byteLines bytes.data.toList)
where
  go : List (List UInt8) → List String
    | [] => []
    | line :: rest =>
      match String.fromUTF8? ⟨line.toArray⟩ with
      | some text => String.ofList (trimLineBreaks text.toList) :: go rest
      | none => []

end Lu
