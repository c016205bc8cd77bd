import Lu.Source.Search
import Lu.Source.Span

namespace Lu

/-- The number of bytes that the characters take in the source. -/
def byteLength (chars : List Char) : Nat := chars.foldl (fun count c => count + c.utf8Size) 0

/-- The number of characters before a byte offset, unless the offset lies inside a character or
past the end. -/
def charsBefore? (chars : List Char) (offset : Nat) : Option Nat := go chars offset 0
where
  go : List Char → Nat → Nat → Option Nat
    | _, 0, count => some count
    | [], _ + 1, _ => none
    | c :: rest, offset, count =>
      if c.utf8Size ≤ offset then go rest (offset - c.utf8Size) (count + 1) else none

/-- The bytes of a text. -/
def utf8Bytes (chars : List Char) : List UInt8 := chars.flatMap String.utf8EncodeChar

/-- The byte of a line end. -/
def newlineByte : UInt8 := 0x0a

/-- The offsets behind the newlines among bytes that begin at an offset; one that is no 32-bit word is
taken for the last word. -/
def newlineEnds (offset : Nat) (bytes : List UInt8) : List Nat :=
  (bytes.zipIdx offset).filterMap fun entry =>
    if entry.1 = newlineByte then some (min (entry.2 + 1) Span.lastOffset) else none

/-- The 32-bit word that numbers, from 1, what has so many before it. A count that is no word is taken
for the last word but one; behind the last word the sum wraps around to 0, unless the program is built to
stop where a sum does not fit. -/
def ordinal (count : Nat) : Nat :=
  ((if count ≤ Span.lastOffset then count else Span.lastOffset - 1) + 1) % (Span.lastOffset + 1)

/-- How many the numbered one has before it; from 0 the difference of words wraps around. -/
def beforeOrdinal (number : Nat) : Nat := (number + Span.lastOffset) % (Span.lastOffset + 1)

theorem ordinal_eq {count : Nat} (inside : count < Span.lastOffset) : ordinal count = count + 1 := by
  rw [ordinal, if_pos (Nat.le_of_lt inside), Nat.mod_eq_of_lt (Nat.succ_lt_succ inside)]

theorem ordinal_last : ordinal Span.lastOffset = 0 := rfl

theorem beforeOrdinal_ordinal {count : Nat} (word : count ≤ Span.lastOffset) :
    beforeOrdinal (ordinal count) = count := by
  rcases Nat.lt_or_eq_of_le word with inside | rfl
  · rw [ordinal_eq inside, beforeOrdinal, Nat.add_assoc, Nat.add_comm 1, Nat.add_mod_right,
      Nat.mod_eq_of_lt (Nat.lt_succ_of_le word)]
  · rfl

/-- Where each line of a text starts, in bytes. -/
structure LineTable where
  starts : Array Nat
deriving Repr, Inhabited

namespace LineTable

/-- A line starts at offset 0 and after every newline. -/
def ofChars (chars : List Char) : LineTable := ⟨(0 :: newlineEnds 0 (utf8Bytes chars)).toArray⟩

def lineCount (table : LineTable) : Nat := table.starts.size

/-- The line that holds the offset, counted from 0: the one that starts there, or the one before the
place where a start would go. -/
def lineIndex (table : LineTable) (offset : Nat) : Nat :=
  match search table.starts offset with
  | .exact index => index
  | .insertion index => index - 1

/-- The line that holds the offset, counted from 1. -/
def lineAt (table : LineTable) (offset : Nat) : Nat := ordinal (table.lineIndex offset)

/-- Line and column, both counted from 1. The column counts characters; an offset inside a
character has column 1, and one past the end stands for the end. -/
def lineColumn (table : LineTable) (chars : List Char) (offset : Nat) : Nat × Nat :=
  let line := table.lineAt offset
  let lineStart := table.starts.getD (beforeOrdinal line) 0
  let stop := min offset (byteLength chars)
  let column :=
    match charsBefore? chars lineStart, charsBefore? chars stop with
    | some before, some upTo => upTo - before
    | _, _ => 0
  (line, ordinal column)

end LineTable

/-- The number of characters up to an offset, which is itself taken for the answer when it lies
inside a character. -/
def charOffset (chars : List Char) (offset : Nat) : Nat :=
  let stop := min offset (byteLength chars)
  (charsBefore? chars stop).getD stop

/-- The span in characters in place of bytes. -/
def Span.inChars (span : Span) (chars : List Char) : Span :=
  ⟨charOffset chars span.start, charOffset chars span.stop⟩

end Lu
