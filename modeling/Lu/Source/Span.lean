namespace Lu

/-- A half-open range of byte offsets into a source text. Tokens, tree nodes and error labels
carry one. -/
structure Span where
  start : Nat
  stop : Nat
deriving DecidableEq, Repr, Inhabited

/-- An offset that a span cannot hold, and the end at which it was met. -/
inductive OffsetError where
  | start (offset : Nat)
  | stop (offset : Nat)
deriving DecidableEq, Repr

def OffsetError.message : OffsetError → String
  | .start offset => s!"span start {offset} exceeds u32::MAX"
  | .stop offset => s!"span end {offset} exceeds u32::MAX"

namespace Span

/-- Offsets are 32-bit words, so this is the last one. -/
def lastOffset : Nat := 4294967295

/-- Where nothing in the source text is meant. -/
def nowhere : Span := ⟨0, 0⟩

def point (offset : Nat) : Span := ⟨offset, offset⟩

/-- A span of the given offsets, or the first of the two that is too large. -/
def ofRange? (start stop : Nat) : Except OffsetError Span :=
  if lastOffset < start then .error (.start start)
  else if lastOffset < stop then .error (.stop stop)
  else .ok ⟨start, stop⟩

/-- As `ofRange?`, with the last offset standing for a range that does not fit. -/
def ofRange (start stop : Nat) : Span :=
  match ofRange? start stop with
  | .ok span => span
  | .error _ => point lastOffset

theorem ofRange_eq {start stop : Nat} (startFits : start ≤ lastOffset)
    (stopFits : stop ≤ lastOffset) : ofRange start stop = ⟨start, stop⟩ := by
  simp [ofRange, ofRange?, Nat.not_lt.mpr startFits, Nat.not_lt.mpr stopFits]

theorem ofRange_eq_point {start stop : Nat} (tooLong : lastOffset < stop) :
    ofRange start stop = point lastOffset := by
  by_cases startFits : lastOffset < start <;> simp [ofRange, ofRange?, startFits, tooLong]

/-- The number of bytes; a reversed span has none. -/
def length? (span : Span) : Option Nat :=
  if span.start ≤ span.stop then some (span.stop - span.start) else none

def isEmpty (span : Span) : Bool := span.start == span.stop

/-- The least span that covers both. -/
def merge (first second : Span) : Span :=
  ⟨min first.start second.start, max first.stop second.stop⟩

/-- Spans are written with two dots between the offsets. -/
def text (span : Span) : String := s!"{span.start}..{span.stop}"

end Span

instance : ToString Span := ⟨Span.text⟩

end Lu
