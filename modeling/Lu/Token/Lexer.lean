import Lu.Token.Scan

namespace Lu

/-- The piece covers the front of the given text and leaves the rest of it. -/
def Piece.Splits (piece : Piece) (chars : List Char) : Prop :=
  piece.text ≠ [] ∧ piece.text ++ piece.rest = chars

theorem Piece.Splits.rest_shorter {piece : Piece} {chars : List Char} (splits : piece.Splits chars) :
    piece.rest.length < chars.length := by
  obtain ⟨nonempty, rfl⟩ := splits
  have : 0 < piece.text.length := List.length_pos_iff.mpr nonempty
  simp only [List.length_append]
  omega

theorem splitComment?_append {body chars text rest : List Char}
    (found : splitComment? body chars = some (text, rest)) :
    text ++ rest = body.reverse ++ chars := by
  fun_induction splitComment? body chars with
  | case1 => simp at found; obtain ⟨rfl, rfl⟩ := found; simp
  | case2 body c chars _ ih => rw [ih found]; simp
  | case3 => simp at found

theorem splitString_append (body chars : List Char) :
    (splitString body chars).1 ++ (splitString body chars).2 = body.reverse ++ chars := by
  fun_induction splitString body chars with
  | case1 => simp
  | case2 => simp_all
  | case3 => simp
  | case4 => simp_all
  | case5 => simp

theorem splitSign_append (chars : List Char) :
    (splitSign chars).1 ++ (splitSign chars).2 = chars := by
  unfold splitSign
  split <;> rfl

theorem splitExponent?_append {chars text rest : List Char}
    (found : splitExponent? chars = some (text, rest)) : text ++ rest = chars := by
  unfold splitExponent? at found
  split at found
  · split at found
    · simp only at found
      split at found
      · simp at found
      · simp only [Option.some.injEq, Prod.mk.injEq] at found
        obtain ⟨rfl, rfl⟩ := found
        simp [List.takeWhile_append_dropWhile, splitSign_append]
    · simp at found
  · simp at found

theorem intPiece_splits {base : Nat} {digits text rest chars : List Char} (nonempty : text ≠ [])
    (covers : text ++ rest = chars) : (intPiece base digits text rest).Splits chars := by
  unfold intPiece
  split <;> exact ⟨nonempty, covers⟩

theorem decimalPiece_splits {whole rest : List Char} (nonempty : whole ≠ []) :
    (decimalPiece whole rest).Splits (whole ++ rest) := by
  unfold decimalPiece
  split
  · split
    · simp only
      split
      · rename_i found
        exact ⟨by simp [floatPiece], by
          simp [floatPiece, splitExponent?_append found, List.takeWhile_append_dropWhile]⟩
      · exact ⟨by simp [floatPiece], by simp [floatPiece, List.takeWhile_append_dropWhile]⟩
    · exact intPiece_splits nonempty rfl
  · split
    · rename_i found
      exact ⟨by simp [floatPiece, nonempty], by
        simp [floatPiece, splitExponent?_append found]⟩
    · exact intPiece_splits nonempty rfl

theorem basedPiece?_splits {chars : List Char} {piece : Piece}
    (found : basedPiece? chars = some piece) : piece.Splits chars := by
  unfold basedPiece? at found
  split at found
  · split at found
    · split at found
      · split at found
        · cases found
          exact intPiece_splits (by simp) (by simp [List.takeWhile_append_dropWhile])
        · cases found
      · cases found
    · cases found
  · cases found

theorem numberPiece_splits (first : Char) (chars : List Char) :
    (numberPiece first chars).Splits (first :: chars) := by
  unfold numberPiece
  split
  · rename_i found
    exact basedPiece?_splits found
  · have splits : (decimalPiece (first :: chars.takeWhile (isDigitPart 10))
        (chars.dropWhile (isDigitPart 10))).Splits _ := decimalPiece_splits (List.cons_ne_nil _ _)
    rwa [List.cons_append, List.takeWhile_append_dropWhile] at splits

theorem stringPiece_splits (chars : List Char) : (stringPiece chars).Splits ('"' :: chars) := by
  unfold stringPiece
  have covers := splitString_append [] chars
  split
  · rename_i split
    rw [split] at covers
    simp only
    split <;> exact ⟨by simp, by simpa using covers⟩
  · rename_i split
    rw [split] at covers
    exact ⟨by simp, by simpa using covers⟩

theorem simplePiece_splits (first : Char) (chars : List Char) :
    (simplePiece first chars).Splits (first :: chars) := by
  unfold simplePiece
  split <;> exact ⟨by simp, rfl⟩

theorem markPiece_splits (first : Char) (chars : List Char) :
    (markPiece first chars).Splits (first :: chars) := by
  unfold markPiece
  split
  · split
    · exact ⟨by simp, rfl⟩
    · exact simplePiece_splits _ _
  · exact simplePiece_splits _ _

theorem slashPiece_splits (chars : List Char) : (slashPiece chars).Splits ('/' :: chars) := by
  unfold slashPiece
  split
  · exact ⟨by simp, by simp [List.takeWhile_append_dropWhile]⟩
  · split
    · rename_i found
      exact ⟨by simp, by simp [splitComment?_append found]⟩
    · exact ⟨by simp, by simp⟩
  · exact markPiece_splits _ _

/-- The pieces of a text cover it without a gap. -/
theorem firstPiece_splits (first : Char) (chars : List Char) :
    (firstPiece first chars).Splits (first :: chars) := by
  unfold firstPiece
  split
  · exact ⟨by simp, by simp [List.takeWhile_append_dropWhile]⟩
  split
  · exact numberPiece_splits first chars
  split
  · exact ⟨by simp [wordPiece], by simp [wordPiece, List.takeWhile_append_dropWhile]⟩
  split
  · rename_i quote
    exact quote ▸ stringPiece_splits chars
  split
  · rename_i slash
    exact slash ▸ slashPiece_splits chars
  · exact markPiece_splits first chars

/-- Reads the tokens of a text that starts at a byte offset, up to the first error. -/
def lexFrom (offset : Nat) (tokens : Array Token) (chars : List Char) :
    Except LexError (Array Token) :=
  match chars with
  | [] => .ok (tokens.push ⟨.eof, Span.ofRange offset offset⟩)
  | first :: more =>
    let piece := firstPiece first more
    let next := offset + byteLength piece.text
    let span := Span.ofRange offset next
    match piece.lexeme with
    | .gap => lexFrom next tokens piece.rest
    | .token kind => lexFrom next (tokens.push ⟨kind, span⟩) piece.rest
    | .error kind => .error ⟨kind, span⟩
termination_by chars.length
decreasing_by all_goals exact (firstPiece_splits first more).rest_shorter

/-- The tokens of a source text, with the end of file as the last. -/
def lex (source : String) : Except LexError (List Token) :=
  (lexFrom 0 #[] source.toList).map Array.toList

end Lu
