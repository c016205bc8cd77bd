import Mathlib.Algebra.Group.Nat.Defs
import Mathlib.Data.List.DropRight
import Lu.Proofs.Source.Search
import Lu.Proofs.Token.Places

namespace Lu

/-!
Lines and columns: the search among the starts of the lines comes to what one counts from the front of
the text, newlines for the line and the characters behind the last of them for the column.
-/

/-- The characters behind the last newline. -/
def lastLine (text : List Char) : List Char := text.rtakeWhile (· ≠ '\n')

/-- The characters up to the last newline. -/
def earlierLines (text : List Char) : List Char := text.rdropWhile (· ≠ '\n')

theorem earlierLines_append_lastLine (text : List Char) : earlierLines text ++ lastLine text = text :=
  List.rdropWhile_append_rtakeWhile

section Words

variable {count other : Nat}

/-- The number is one more than the count just if that is a word too. -/
theorem ordinal_eq_iff (word : count ≤ Span.lastOffset) :
    ordinal count = 1 + count ↔ count ≠ Span.lastOffset := by
  rcases Nat.lt_or_eq_of_le word with inside | rfl
  · rw [ordinal_eq inside]
    omega
  · rw [ordinal_last]
    omega

theorem ordinal_injective (word : count ≤ Span.lastOffset) (otherWord : other ≤ Span.lastOffset)
    (same : ordinal count = ordinal other) : count = other := by
  rw [← beforeOrdinal_ordinal word, same, beforeOrdinal_ordinal otherWord]

theorem ordinal_le (count : Nat) : ordinal count ≤ count + 1 := by
  unfold ordinal
  split
  · exact Nat.mod_le ..
  · exact (Nat.mod_le ..).trans (by omega)

end Words

section Bytes

variable {c : Char} {front back : List Char}

theorem utf8Bytes_append : utf8Bytes (front ++ back) = utf8Bytes front ++ utf8Bytes back :=
  List.flatMap_append

theorem length_utf8Bytes (text : List Char) : (utf8Bytes text).length = byteLength text := by
  induction text with
  | nil => rfl
  | cons c rest ih =>
    rw [byteLength_cons, ← ih, utf8Bytes, List.flatMap_cons, List.length_append,
      String.length_utf8EncodeChar]
    rfl

theorem count_newlines_le (text : List Char) :
    (utf8Bytes text).count newlineByte ≤ byteLength text := by
  rw [← length_utf8Bytes]
  exact List.count_le_length

theorem length_le_byteLength (text : List Char) : text.length ≤ byteLength text := by
  induction text with
  | nil => exact Nat.le_refl _
  | cons c rest ih =>
    have size := c.utf8Size_pos
    rw [byteLength_cons, List.length_cons]
    omega

/-- A newline is one byte, and no other character has that byte in it. -/
theorem newlineByte_mem_utf8EncodeChar : newlineByte ∈ String.utf8EncodeChar c ↔ c = '\n' := by
  have newline : '\n'.toNat = 10 := rfl
  have byte (n : Nat) : newlineByte = UInt8.ofNat n ↔ n % 256 = 10 := by
    rw [eq_comm, UInt8.ofNat_eq_iff_mod_eq_toNat]
    rfl
  rw [← Char.toNat_inj, newline]
  change newlineByte ∈ String.utf8EncodeChar c ↔ c.val.toNat = 10
  simp only [String.utf8EncodeChar]
  split
  · rw [List.mem_singleton, byte]
    omega
  split
  · simp only [List.mem_cons, List.not_mem_nil, or_false, byte]
    omega
  split
  · simp only [List.mem_cons, List.not_mem_nil, or_false, byte]
    omega
  · simp only [List.mem_cons, List.not_mem_nil, or_false, byte]
    omega

theorem newlineByte_mem_utf8Bytes {text : List Char} : newlineByte ∈ utf8Bytes text ↔ '\n' ∈ text := by
  simp only [utf8Bytes, List.mem_flatMap, newlineByte_mem_utf8EncodeChar, exists_eq_right]

end Bytes

section Ends

variable {offset start : Nat} {bytes front back : List UInt8}

theorem mem_newlineEnds : start ∈ newlineEnds offset bytes ↔
    ∃ index, bytes[index]? = some newlineByte ∧ start = min (offset + index + 1) Span.lastOffset := by
  simp only [newlineEnds, List.mem_filterMap, List.mem_zipIdx_iff_le_and_getElem?_sub]
  constructor
  · rintro ⟨⟨byte, index⟩, ⟨le, atIndex⟩, found⟩
    split at found
    · rename_i newline
      cases newline
      cases found
      exact ⟨index - offset, atIndex, by rw [Nat.add_sub_cancel' le]⟩
    · cases found
  · rintro ⟨index, atIndex, rfl⟩
    refine ⟨(newlineByte, offset + index), ⟨Nat.le_add_right .., ?_⟩, if_pos rfl⟩
    rwa [Nat.add_sub_cancel_left]

theorem newlineEnds_append : newlineEnds offset (front ++ back) =
    newlineEnds offset front ++ newlineEnds (offset + front.length) back := by
  rw [newlineEnds, List.zipIdx_append, List.filterMap_append]
  rfl

theorem newlineEnds_eq_nil (none : newlineByte ∉ bytes) : newlineEnds offset bytes = [] := by
  rw [List.eq_nil_iff_forall_not_mem]
  intro start member
  obtain ⟨index, atIndex, -⟩ := mem_newlineEnds.mp member
  exact none (List.mem_of_getElem? atIndex)

theorem length_newlineEnds : (newlineEnds offset bytes).length = bytes.count newlineByte := by
  induction bytes generalizing offset with
  | nil => rfl
  | cons byte rest ih =>
    rw [← List.singleton_append, newlineEnds_append, List.length_append, ih, List.count_append]
    by_cases newline : byte = newlineByte
    · subst newline
      rfl
    · have none : newlineByte ∉ [byte] := by simpa using Ne.symm newline
      rw [newlineEnds_eq_nil none, List.count_eq_zero_of_not_mem none]
      rfl

theorem newlineEnds_ascending : (newlineEnds offset bytes).Pairwise (· ≤ ·) := by
  induction bytes generalizing offset with
  | nil => exact .nil
  | cons byte rest ih =>
    rw [← List.singleton_append, newlineEnds_append, List.pairwise_append]
    refine ⟨?_, ih, fun start first later member => ?_⟩
    · by_cases newline : byte = newlineByte
      · subst newline
        exact List.pairwise_singleton ..
      · have none : newlineByte ∉ [byte] := by simpa using Ne.symm newline
        rw [newlineEnds_eq_nil none]
        exact .nil
    · obtain ⟨before, atBefore, rfl⟩ := mem_newlineEnds.mp first
      obtain ⟨index, -, rfl⟩ := mem_newlineEnds.mp member
      obtain ⟨within, -⟩ := List.getElem?_eq_some_iff.mp atBefore
      have only : [byte].length = 1 := rfl
      omega

end Ends

namespace LineTable

section Starts

variable {text before after : List Char} {offset : Nat}

theorem ofChars_ascending (text : List Char) :
    (ofChars text).starts.toList.Pairwise (· ≤ ·) :=
  List.pairwise_cons.mpr ⟨fun _ _ => Nat.zero_le _, newlineEnds_ascending⟩

/-- As many lines start before an offset, or at it, as its line has before it, and one more. -/
theorem lineIndex_eq_countP (text : List Char) (offset : Nat) :
    (ofChars text).lineIndex offset + 1 = (ofChars text).starts.toList.countP (· ≤ offset) := by
  have ascending := ofChars_ascending text
  have nonempty : 0 < (ofChars text).starts.size := Nat.succ_pos _
  obtain ⟨last, narrowed, found⟩ := search_narrowed offset ascending nonempty
  have notAbove : (ofChars text).starts.getD last 0 ≤ offset := by
    rcases narrowed.reached with rfl | notAbove
    · exact Nat.zero_le _
    · exact notAbove
  rw [narrowed.countP_eq ascending notAbove]
  rcases found with exact | insertion | ⟨first, rfl⟩
  · simp only [lineIndex, exact]
  · simp only [lineIndex, insertion, Nat.add_sub_cancel]
  · simp only [lineIndex, first, Nat.zero_sub]

theorem lineIndex_mono (text : List Char) {offset later : Nat} (le : offset ≤ later) :
    (ofChars text).lineIndex offset ≤ (ofChars text).lineIndex later := by
  rw [← Nat.add_le_add_iff_right , lineIndex_eq_countP, lineIndex_eq_countP]
  refine List.countP_mono_left fun start _ before => ?_
  simp only [decide_eq_true_eq] at before ⊢
  omega

theorem lineIndex_lt_lineCount (text : List Char) (offset : Nat) :
    (ofChars text).lineIndex offset < (ofChars text).lineCount := by
  rw [← Nat.succ_le_iff, Nat.succ_eq_add_one, lineIndex_eq_countP]
  exact List.countP_le_length

theorem lineAt_le_lineCount (text : List Char) (offset : Nat) :
    (ofChars text).lineAt offset ≤ (ofChars text).lineCount :=
  (ordinal_le _).trans (lineIndex_lt_lineCount text offset)

theorem lineCount_eq (text : List Char) :
    (ofChars text).lineCount = 1 + (utf8Bytes text).count newlineByte := by
  change (newlineEnds 0 (utf8Bytes text)).length + 1 = _
  rw [length_newlineEnds, Nat.add_comm]

/-- In a text with another character than a newline there are fewer lines than there are words. -/
theorem lineAt_eq (short : byteLength text ≤ Span.lastOffset) (other : ∃ c ∈ text, c ≠ '\n')
    (offset : Nat) : (ofChars text).lineAt offset = (ofChars text).lineIndex offset + 1 := by
  have fewer : (utf8Bytes text).count newlineByte ≠ (utf8Bytes text).length := by
    intro all
    obtain ⟨c, member, different⟩ := other
    obtain ⟨byte, first⟩ := List.exists_mem_of_ne_nil (String.utf8EncodeChar c) String.utf8EncodeChar_ne_nil
    have newline := List.count_eq_length.mp all byte (List.mem_flatMap.mpr ⟨c, member, first⟩)
    exact different (newlineByte_mem_utf8EncodeChar.mp (newline ▸ first))
  have atMost := count_newlines_le text
  rw [length_utf8Bytes] at fewer
  have inTable := lineIndex_lt_lineCount text offset
  rw [lineCount_eq] at inTable
  exact ordinal_eq (by omega)

/-- The lines that start in the text before an offset, and those that start behind it. -/
theorem starts_append (before after : List Char) : (ofChars (before ++ after)).starts.toList =
    0 :: (newlineEnds 0 (utf8Bytes before) ++
      newlineEnds (byteLength before) (utf8Bytes after)) := by
  change 0 :: newlineEnds 0 (utf8Bytes (before ++ after)) = _
  rw [utf8Bytes_append, newlineEnds_append, length_utf8Bytes, Nat.zero_add]

theorem lineIndex_eq_count (short : byteLength (before ++ after) ≤ Span.lastOffset) :
    (ofChars (before ++ after)).lineIndex (byteLength before) =
      (utf8Bytes before).count newlineByte := by
  rw [byteLength_append, ← length_utf8Bytes after] at short
  have front : (newlineEnds 0 (utf8Bytes before)).countP (· ≤ byteLength before) =
      (utf8Bytes before).count newlineByte := by
    refine Eq.trans (List.countP_eq_length.mpr fun start member => ?_) length_newlineEnds
    obtain ⟨index, atIndex, rfl⟩ := mem_newlineEnds.mp member
    obtain ⟨within, -⟩ := List.getElem?_eq_some_iff.mp atIndex
    rw [length_utf8Bytes] at within
    exact decide_eq_true (by omega)
  have back : (newlineEnds (byteLength before) (utf8Bytes after)).countP (· ≤ byteLength before) = 0 := by
    rw [List.countP_eq_zero]
    intro start member
    obtain ⟨index, atIndex, rfl⟩ := mem_newlineEnds.mp member
    obtain ⟨within, -⟩ := List.getElem?_eq_some_iff.mp atIndex
    simp only [decide_eq_true_eq, Nat.not_le]
    omega
  refine Nat.succ_inj.mp ?_
  rw [Nat.succ_eq_add_one, lineIndex_eq_countP, starts_append, List.countP_cons, List.countP_append,
    front, back]
  rfl

/-- The last start of a line in a text is behind its last newline. -/
theorem getLastD_newlineEnds (short : byteLength before ≤ Span.lastOffset) :
    (newlineEnds 0 (utf8Bytes before)).getLastD 0 = byteLength (earlierLines before) := by
  induction before using List.reverseRecOn with
  | nil => rfl
  | append_singleton before c ih =>
    rw [byteLength_append] at short
    have step : newlineEnds 0 (utf8Bytes (before ++ [c])) = newlineEnds 0 (utf8Bytes before) ++
        newlineEnds (byteLength before) (utf8Bytes [c]) := by
      rw [utf8Bytes_append, newlineEnds_append, length_utf8Bytes, Nat.zero_add]
    rw [step]
    by_cases newline : c = '\n'
    · subst newline
      have single : newlineEnds (byteLength before) (utf8Bytes ['\n']) = [byteLength before + 1] := by
        have fits : byteLength before + 1 ≤ Span.lastOffset := short
        change [min (byteLength before + 1) Span.lastOffset] = _
        rw [Nat.min_eq_left fits]
      have all : earlierLines (before ++ ['\n']) = before ++ ['\n'] :=
        List.rdropWhile_concat_neg _ _ _ (by simp)
      rw [single, List.getLastD_concat, all, byteLength_append]
      rfl
    · have none : newlineByte ∉ utf8Bytes [c] := by
        rw [newlineByte_mem_utf8Bytes, List.mem_singleton]
        exact fun same => newline same.symm
      have same : earlierLines (before ++ [c]) = earlierLines before :=
        List.rdropWhile_concat_pos _ _ _ (by simpa using newline)
      rw [newlineEnds_eq_nil none, List.append_nil, same]
      exact ih (by omega)

theorem getElem?_length_eq_getLastD {α : Type} (first : α) (front back : List α) :
    (first :: (front ++ back))[front.length]? = some (front.getLastD first) := by
  induction front generalizing first with
  | nil => rfl
  | cons second rest ih =>
    rw [List.getLastD_cons, ← ih second]
    rfl

/-- The line of an offset starts behind the last newline before the offset. -/
theorem lineStart_eq (short : byteLength (before ++ after) ≤ Span.lastOffset) :
    (ofChars (before ++ after)).starts.getD ((utf8Bytes before).count newlineByte) 0 =
      byteLength (earlierLines before) := by
  rw [byteLength_append] at short
  have bound : byteLength before ≤ Span.lastOffset := by omega
  rw [← length_newlineEnds, Array.getD_eq_getD_getElem?, ← Array.getElem?_toList,
    starts_append, getElem?_length_eq_getLastD, Option.getD_some, getLastD_newlineEnds bound]

end Starts

end LineTable

section Positions

variable {text before after : List Char}

theorem charsBefore?_append (front back : List Char) :
    charsBefore? (front ++ back) (byteLength front) = some front.length := by
  have go : ∀ count, charsBefore?.go (front ++ back) (byteLength front) count =
      some (count + front.length) := by
    induction front with
    | nil => exact fun count => by rw [List.nil_append]; cases back <;> rfl
    | cons c front ih =>
      intro count
      have size := c.utf8Size_pos
      obtain ⟨past, offset⟩ : ∃ past, c.utf8Size + byteLength front = past + 1 :=
        ⟨c.utf8Size + byteLength front - 1, by omega⟩
      have fits : c.utf8Size ≤ past + 1 := by omega
      have step : charsBefore?.go (c :: (front ++ back)) (past + 1) count = if c.utf8Size ≤ past + 1
          then charsBefore?.go (front ++ back) (past + 1 - c.utf8Size) (count + 1) else none := rfl
      rw [byteLength_cons, List.cons_append, offset, step, if_pos fits, ← offset,
        Nat.add_sub_cancel_left, ih, List.length_cons, Nat.add_right_comm, Nat.add_assoc]
  rw [charsBefore?, go, Nat.zero_add]

theorem length_lastLine_le (text : List Char) : (lastLine text).length ≤ byteLength text := by
  have all := congrArg List.length (earlierLines_append_lastLine text)
  have chars := length_le_byteLength text
  rw [List.length_append] at all
  omega

theorem lineColumn_eq (short : byteLength (before ++ after) ≤ Span.lastOffset) :
    (LineTable.ofChars (before ++ after)).lineColumn (before ++ after) (byteLength before) =
      (ordinal ((utf8Bytes before).count newlineByte), ordinal (lastLine before).length) := by
  have word : (utf8Bytes before).count newlineByte ≤ Span.lastOffset := by
    have few := count_newlines_le before
    rw [byteLength_append] at short
    omega
  have stop : min (byteLength before) (byteLength (before ++ after)) = byteLength before := by
    rw [byteLength_append]
    omega
  have start : charsBefore? (before ++ after) (byteLength (earlierLines before)) =
      some (earlierLines before).length := by
    rw [← charsBefore?_append (earlierLines before) (lastLine before ++ after), ← List.append_assoc,
      earlierLines_append_lastLine]
  have length : (earlierLines before).length + (lastLine before).length = before.length := by
    rw [← List.length_append, earlierLines_append_lastLine]
  have column : before.length - (earlierLines before).length = (lastLine before).length := by
    omega
  simp only [LineTable.lineColumn, LineTable.lineAt, LineTable.lineIndex_eq_count short,
    beforeOrdinal_ordinal word, LineTable.lineStart_eq short, stop, start, charsBefore?_append, column]

/-- Characters without a newline make the last line longer. -/
theorem lastLine_append (none : '\n' ∉ after) :
    lastLine (before ++ after) = lastLine before ++ after := by
  have all : ∀ c ∈ after.reverse, decide (c ≠ '\n') = true := by
    intro c member
    refine decide_eq_true ?_
    rintro rfl
    exact none (List.mem_reverse.mp member)
  rw [lastLine, List.rtakeWhile, List.reverse_append, List.takeWhile_append_of_pos all,
    List.reverse_append, List.reverse_reverse]
  rfl

/-- Behind the front of a text a newline makes for another line, and anything else for another column. -/
theorem eq_nil_of_counts_append
    (line : (utf8Bytes (before ++ after)).count newlineByte = (utf8Bytes before).count newlineByte)
    (column : (lastLine (before ++ after)).length = (lastLine before).length) : after = [] := by
  rw [utf8Bytes_append, List.count_append] at line
  have none : newlineByte ∉ utf8Bytes after := List.count_eq_zero.mp (by omega)
  rw [newlineByte_mem_utf8Bytes] at none
  rw [lastLine_append none, List.length_append] at column
  exact List.length_eq_zero_iff.mp (by omega)

theorem eq_of_counts {front other back rest : List Char} (same : front ++ back = other ++ rest)
    (line : (utf8Bytes front).count newlineByte = (utf8Bytes other).count newlineByte)
    (column : (lastLine front).length = (lastLine other).length) : front = other := by
  rcases List.append_eq_append_iff.mp same with ⟨more, rfl, -⟩ | ⟨more, rfl, -⟩
  · rw [eq_nil_of_counts_append line.symm column.symm, List.append_nil]
  · rw [eq_nil_of_counts_append line column, List.append_nil]

end Positions

/-- In a text whose offsets fit in 32 bits, the line of an offset between two characters is one more
than there are newline bytes before it, and its column one more than there are characters since the last
of them, just if neither number of them is the last 32-bit word. Only behind as many bytes can there be
so many. The table has that line, and no other offset has the same line and column. -/
theorem line_and_column_are_counts {text : List Char} (short : byteLength text < 2 ^ 32) :
    (∀ before after, before ++ after = text →
      ((LineTable.ofChars text).lineColumn text (byteLength before) =
          (1 + (utf8Bytes before).count newlineByte, 1 + (lastLine before).length) ↔
        (utf8Bytes before).count newlineByte ≠ 2 ^ 32 - 1 ∧ (lastLine before).length ≠ 2 ^ 32 - 1) ∧
      (byteLength before < 2 ^ 32 - 1 → (utf8Bytes before).count newlineByte ≠ 2 ^ 32 - 1 ∧
        (lastLine before).length ≠ 2 ^ 32 - 1) ∧
      ((LineTable.ofChars text).lineColumn text (byteLength before)).1 ≤
        (LineTable.ofChars text).lineCount) ∧
    ∀ offset other, Boundary text offset → Boundary text other →
      (LineTable.ofChars text).lineColumn text offset =
        (LineTable.ofChars text).lineColumn text other → offset = other := by
  have fits : byteLength text ≤ Span.lastOffset := Nat.le_of_lt_succ short
  constructor
  · rintro before after rfl
    have upTo : byteLength before ≤ Span.lastOffset := by
      rw [byteLength_append] at fits
      omega
    have newlines := count_newlines_le before
    have characters := length_lastLine_le before
    refine ⟨?_, fun early => ⟨by omega, by omega⟩, ?_⟩
    · rw [lineColumn_eq fits, Prod.mk.injEq, ordinal_eq_iff (newlines.trans upTo),
        ordinal_eq_iff (characters.trans upTo)]
      rfl
    · exact LineTable.lineAt_le_lineCount ..
  · rintro - - ⟨front, back, rfl, rfl⟩ ⟨other, rest, split, rfl⟩ same
    rw [lineColumn_eq fits, ← split, lineColumn_eq (split ▸ fits), Prod.mk.injEq] at same
    have words {before after : List Char} (whole : before ++ after = front ++ back) :
        (utf8Bytes before).count newlineByte ≤ Span.lastOffset ∧
          (lastLine before).length ≤ Span.lastOffset := by
      have newlines := count_newlines_le before
      have characters := length_lastLine_le before
      rw [← whole, byteLength_append] at fits
      exact ⟨by omega, by omega⟩
    obtain ⟨newlines, characters⟩ := words rfl
    obtain ⟨otherNewlines, otherCharacters⟩ := words split
    rw [eq_of_counts split.symm (ordinal_injective newlines otherNewlines same.1)
      (ordinal_injective characters otherCharacters same.2)]

/-- After a character of two bytes, an empty line and an arrow of three bytes. -/
theorem empty_line_is_counted :
    byteLength "é\n\n→x".toList < 2 ^ 32 ∧
      (LineTable.ofChars "é\n\n→x".toList).lineColumn "é\n\n→x".toList 3 = (2, 1) ∧
      (LineTable.ofChars "é\n\n→x".toList).lineColumn "é\n\n→x".toList 7 = (3, 2) := by
  have short : byteLength "é\n\n→x".toList < 2 ^ 32 := by decide
  have counts := (line_and_column_are_counts short).1
  obtain ⟨atEmpty, early, -⟩ := counts "é\n".toList "\n→x".toList rfl
  obtain ⟨atLast, earlyToo, -⟩ := counts "é\n\n→".toList "x".toList rfl
  exact ⟨short, atEmpty.mpr (early (by decide)), atLast.mpr (earlyToo (by decide))⟩

/-- One line of as many characters as a word can count. -/
def longLine : List Char := List.replicate (2 ^ 32 - 1) 'a'

/-- Behind the last character of the longest line the column is not one more than the characters before
it: the sum is no word. -/
theorem longest_line_has_no_last_column :
    byteLength longLine < 2 ^ 32 ∧ byteLength longLine = 4294967295 ∧
      (utf8Bytes longLine).count newlineByte = 0 ∧ (lastLine longLine).length = 4294967295 ∧
      (LineTable.ofChars longLine).lineColumn longLine 4294967295 = (1, 0) ∧
      (LineTable.ofChars longLine).lineColumn longLine 4294967295 ≠ (1, 1 + 4294967295) := by
  have bytes : byteLength longLine = 4294967295 := by
    rw [longLine, byteLength_replicate]
    rfl
  have none : '\n' ∉ longLine := fun member => by
    cases List.eq_of_mem_replicate member
  have line : (utf8Bytes longLine).count newlineByte = 0 := by
    rw [List.count_eq_zero, newlineByte_mem_utf8Bytes]
    exact none
  have column : (lastLine longLine).length = 4294967295 := by
    have all : lastLine ([] ++ longLine) = lastLine [] ++ longLine := lastLine_append none
    rw [List.nil_append] at all
    rw [all, List.length_append, longLine, List.length_replicate]
    rfl
  have found : (LineTable.ofChars longLine).lineColumn longLine 4294967295 = (1, 0) := by
    have whole : byteLength (longLine ++ []) ≤ Span.lastOffset := by
      rw [List.append_nil, bytes]
      rfl
    have counted := lineColumn_eq whole
    rw [List.append_nil, bytes, line, column] at counted
    exact counted
  refine ⟨bytes ▸ by decide, bytes, line, column, found, ?_⟩
  rw [found]
  decide

end Lu
