import Lu.Proofs.Decimal.Numeral
import Lu.Proofs.Run.Actions
import Lu.Proofs.Text.Blank

namespace Lu

/-!
Built-in functions on texts: numbers that are written are read again and nothing but numbers is read,
and texts are measured, cut and joined in characters.
-/

namespace Native

/-- The call gives the value, in any environment, and leaves the environment as it is. -/
def Gives (native : Native) (args : List Value) (value : Value) : Prop :=
  ∀ env, native.call args env = .ok (value, env)

/-- In any environment the call ends in an error of the function itself. -/
def Fails (native : Native) (args : List Value) : Prop :=
  ∀ env, ∃ failure, native.call args env = .error (.error (.nativeFailed native.name failure))

/-- The range lies in the text. Its end is a sum of numbers and does not overflow. -/
def RangeIn (s : String) (start count : Int64) : Prop :=
  0 ≤ start.toInt ∧ 0 ≤ count.toInt ∧ start.toInt + count.toInt ≤ s.length

section Outcomes

variable {native : Native} {args : List Value} {value : Value} {attempt : Except RuntimeErrorKind Value}

/-- A function that leaves the environment alone gives what its body gives. -/
theorem gives_iff (body : ∀ env, native.call args env = quiet env attempt) :
    native.Gives args value ↔ attempt = .ok value := by
  constructor
  · intro gives
    have outcome := (body {}).symm.trans (gives {})
    cases attempt with
    | ok found =>
      cases outcome
      rfl
    | error kind => cases outcome
  · rintro rfl env
    exact body env

theorem fails_of_error (failure : NativeFailure)
    (body : ∀ env, native.call args env = quiet env attempt)
    (error : attempt = .error (.nativeFailed native.name failure)) : native.Fails args := by
  intro env
  rw [body, error]
  exact ⟨failure, rfl⟩

theorem Fails.not_gives (fails : native.Fails args) : ¬ native.Gives args value := by
  intro gives
  obtain ⟨failure, error⟩ := fails {}
  rw [gives {}] at error
  cases error

end Outcomes

section Numbers

variable {text : String} {n m : Int64}

theorem itos_gives (n : Int64) : itos.Gives [.int n] (.str (toString n.toInt)) := fun _ => rfl

theorem call_stoi (text : String) (env : Environment) :
    stoi.call [.str text] env = quiet env ((parseInt text).map .int) := by
  change (answer (parseInt text >>= fun n => pure (.int n))).result env = _
  rw [answer_result]
  cases parseInt text <;> rfl

theorem stoi_gives_iff :
    stoi.Gives [.str text] (.int n) ↔ Numeral (trimBlanks text.toList) n.toInt := by
  rw [gives_iff (call_stoi text), ← readInt_eq_ok, map_eq_ok, parseInt]
  cases readInt (trimBlanks text.toList) <;> simp

theorem stoi_fails_iff : stoi.Fails [.str text] ↔
    ∀ value, Numeral (trimBlanks text.toList) value → ¬ FitsWord value := by
  constructor
  · rintro fails value numeral ⟨least, most⟩
    have word : (Int64.ofInt value).toInt = value := Int64.toInt_ofInt_of_le least most
    rw [← word] at numeral
    exact fails.not_gives (stoi_gives_iff.mpr numeral)
  · intro large
    cases read : readInt (trimBlanks text.toList) with
    | ok n => exact absurd (fitsWord_toInt n) (large _ (readInt_eq_ok.mp read))
    | error cause =>
      refine fails_of_error (.intText text cause) (call_stoi text) ?_
      rw [parseInt, read]
      rfl

end Numbers

section Characters

variable {s t part : String} {n start count : Int64}

theorem call_strlen (s : String) (env : Environment) :
    strlen.call [.str s] env = quiet env ((checkedInt "strlen" s.length).map .int) := by
  change (answer (checkedInt "strlen" s.length >>= fun n => pure (.int n))).result env = _
  rw [answer_result]
  cases checkedInt "strlen" (s.length : Int) <;> rfl

theorem strlen_gives_iff : strlen.Gives [.str s] (.int n) ↔ n.toInt = s.length := by
  rw [gives_iff (call_strlen s), map_eq_ok, ← int64?_eq_some, checkedInt]
  cases int64? s.length <;> simp

theorem strlen_gives (fits : FitsWord s.length) : ∃ n, strlen.Gives [.str s] (.int n) := by
  obtain ⟨least, most⟩ := fits
  exact ⟨Int64.ofInt s.length, strlen_gives_iff.mpr (Int64.toInt_ofInt_of_le least most)⟩

theorem sconcat_gives_iff : sconcat.Gives [.str s, .str t] (.str part) ↔ s ++ t = part := by
  have body (env : Environment) :
      sconcat.call [.str s, .str t] env = quiet env (.ok (.str (s ++ t))) := rfl
  rw [gives_iff body]
  simp

theorem call_substr (s : String) (start count : Int64) (env : Environment) :
    substr.call [.str s, .int start, .int count] env =
      quiet env ((substring s start count).map .str) := by
  change (answer (substring s start count >>= fun part => pure (.str part))).result env = _
  rw [answer_result]
  cases substring s start count <;> rfl

/-- In a range that lies in the text there is something to cut. -/
theorem substring_of_range {k m : Nat} (first : start.toInt = k) (length : count.toInt = m)
    (range : k + m ≤ s.length) :
    substring s start count = .ok (String.ofList ((s.toList.drop k).take m)) := by
  have inside : 0 ≤ (k : Int) ∧ 0 ≤ (m : Int) ∧ (k : Int) + m ≤ s.length := by omega
  simp only [substring, first, length, String.length_toList, if_pos inside, Int.toNat_natCast]

theorem substring_out_of_range (outside : ¬ RangeIn s start count) :
    substring s start count = .error (.nativeFailed "substr" (.range start count s.length)) := by
  rw [RangeIn] at outside
  simp only [substring, String.length_toList, if_neg outside]

theorem substring_range : (∃ part, substring s start count = .ok part) ↔ RangeIn s start count := by
  constructor
  · rintro ⟨part, cut⟩
    by_contra outside
    rw [substring_out_of_range outside] at cut
    cases cut
  · rintro ⟨first, length, range⟩
    obtain ⟨k, first⟩ := Int.eq_ofNat_of_zero_le first
    obtain ⟨m, length⟩ := Int.eq_ofNat_of_zero_le length
    exact ⟨_, substring_of_range first length (by omega)⟩

/-- What is cut has as many characters in front of it and of its own as were asked for. -/
theorem substring_eq_ok : substring s start count = .ok part ↔
    ∃ front back, s = front ++ part ++ back ∧ start.toInt = front.length ∧
      count.toInt = part.length := by
  constructor
  · intro cut
    obtain ⟨first, length, range⟩ := substring_range.mp ⟨part, cut⟩
    obtain ⟨k, first⟩ := Int.eq_ofNat_of_zero_le first
    obtain ⟨m, length⟩ := Int.eq_ofNat_of_zero_le length
    rw [substring_of_range first length (by omega)] at cut
    cases cut
    refine ⟨String.ofList (s.toList.take k), String.ofList ((s.toList.drop k).drop m), ?_, ?_, ?_⟩
    · rw [← String.toList_inj]
      simp only [String.toList_append, String.toList_ofList, List.append_assoc,
        List.take_append_drop]
    · rw [String.length_ofList, List.length_take, String.length_toList]
      omega
    · rw [String.length_ofList, List.length_take, List.length_drop, String.length_toList]
      omega
  · rintro ⟨front, back, rfl, first, length⟩
    have range : front.length + part.length ≤ (front ++ part ++ back).length := by
      simp only [String.length_append]
      omega
    rw [substring_of_range first length range]
    simp only [String.toList_append, List.append_assoc, ← String.length_toList, List.drop_left,
      List.take_left, String.ofList_toList]

theorem substr_gives_iff : substr.Gives [.str s, .int start, .int count] (.str part) ↔
    ∃ front back, s = front ++ part ++ back ∧ start.toInt = front.length ∧
      count.toInt = part.length := by
  rw [gives_iff (call_substr s start count), ← substring_eq_ok]
  simp [map_eq_ok]

theorem substr_gives_some : (∃ part, substr.Gives [.str s, .int start, .int count] (.str part)) ↔
    RangeIn s start count := by
  rw [← substring_range]
  simp only [substr_gives_iff, substring_eq_ok]

theorem substr_fails_iff :
    substr.Fails [.str s, .int start, .int count] ↔ ¬ RangeIn s start count := by
  constructor
  · intro fails range
    obtain ⟨part, gives⟩ := substr_gives_some.mpr range
    exact fails.not_gives gives
  · intro outside
    refine fails_of_error (.range start count s.length) (call_substr s start count) ?_
    rw [substring_out_of_range outside]
    rfl

/-- Two cuts that meet give the text back when they are joined. -/
theorem substr_split (length : strlen.Gives [.str s] (.int n)) (nonneg : 0 ≤ start.toInt)
    (within : start.toInt ≤ n.toInt) :
    ∃ front back, substr.Gives [.str s, .int 0, .int start] (.str front) ∧
      substr.Gives [.str s, .int start, .int (n - start)] (.str back) ∧
      sconcat.Gives [.str front, .str back] (.str s) := by
  rw [strlen_gives_iff] at length
  have zero : (0 : Int64).toInt = 0 := rfl
  have others : (n - start).toInt = n.toInt - start.toInt :=
    Int64.toInt_sub_of_le _ _ (Int64.le_iff_toInt_le.mpr nonneg) (Int64.le_iff_toInt_le.mpr within)
  have range : RangeIn s 0 start := ⟨zero.ge, nonneg, by omega⟩
  obtain ⟨front, cut⟩ := substr_gives_some.mpr range
  obtain ⟨nothing, back, split, first, middle⟩ := substr_gives_iff.mp cut
  obtain rfl : nothing = "" := String.length_eq_zero_iff.mp (by omega)
  rw [String.empty_append] at split
  have total : s.length = front.length + back.length := by rw [split, String.length_append]
  have rest : s = front ++ back ++ "" := by rw [split, String.append_empty]
  exact ⟨front, back, cut, substr_gives_iff.mpr ⟨front, "", rest, middle, by omega⟩,
    sconcat_gives_iff.mpr split.symm⟩

/-- What was joined behind a text is cut off again at the length of the text. -/
theorem substr_joined (front : strlen.Gives [.str s] (.int n)) (back : strlen.Gives [.str t] (.int m)) :
    substr.Gives [.str (s ++ t), .int n, .int m] (.str t) := by
  rw [strlen_gives_iff] at front back
  exact substr_gives_iff.mpr ⟨s, "", by rw [String.append_empty], front, back⟩

end Characters

end Native

/-- An integer that is written is read as that integer, whatever white space is put around it. Of all
texts just those are read that are, without the white space around them, numbers that are words of
64 bits, each as its number; on the others the function fails. -/
theorem stoi_inverts_itos :
    (∀ n, ∃ text, Native.itos.Gives [.int n] (.str text) ∧
      ∀ before after : String, AllBlank before.toList → AllBlank after.toList →
        Native.stoi.Gives [.str (before ++ text ++ after)] (.int n)) ∧
    ∀ text : String, ∃ core, Stripped text.toList core ∧
      (∀ n, Native.stoi.Gives [.str text] (.int n) ↔ Numeral core n.toInt) ∧
      (Native.stoi.Fails [.str text] ↔ ∀ value, Numeral core value → ¬ FitsWord value) := by
  constructor
  · intro n
    refine ⟨_, Native.itos_gives n, ?_⟩
    intro before after blankBefore blankAfter
    have numeral := numeral_toString n.toInt
    have stripped := stripped_around blankBefore blankAfter numeral.not_blank
    rw [Native.stoi_gives_iff, String.toList_append, String.toList_append, stripped_iff.mp stripped]
    exact numeral
  · intro text
    exact ⟨_, stripped_iff.mpr rfl, fun _ => Native.stoi_gives_iff, Native.stoi_fails_iff⟩

/-- The least word, which has no counterpart above zero, between white space of several kinds. -/
theorem least_word_is_read_between_blanks :
    AllBlank "\u00a0".toList ∧ AllBlank "\u3000\n".toList ∧
      Native.stoi.Gives [.str ("\u00a0" ++ "-9223372036854775808" ++ "\u3000\n")]
        (.int (-9223372036854775808)) := by
  have before : AllBlank "\u00a0".toList := by decide
  have after : AllBlank "\u3000\n".toList := by decide
  have written : Native.itos.call [.int (-9223372036854775808)] {} =
      .ok (.str "-9223372036854775808", {}) := rfl
  obtain ⟨text, gives, read⟩ := stoi_inverts_itos.1 (-9223372036854775808)
  rw [gives {}] at written
  cases written
  exact ⟨before, after, read _ _ before after⟩

/-- Lengths and places in texts are counted in characters. A cut succeeds just if its range lies in
the text, and gives the characters of the range. Lengths add up when texts are joined, and texts that
were joined are cut apart again, as texts that were cut apart are joined again. -/
theorem texts_are_counted_in_characters (s t : String) :
    (∀ n, Native.strlen.Gives [.str s] (.int n) ↔ n.toInt = s.length) ∧
    (FitsWord s.length → ∃ n, Native.strlen.Gives [.str s] (.int n)) ∧
    (∀ start count,
      ((∃ part, Native.substr.Gives [.str s, .int start, .int count] (.str part)) ↔
        Native.RangeIn s start count) ∧
      (Native.substr.Fails [.str s, .int start, .int count] ↔
        ¬ Native.RangeIn s start count) ∧
      ∀ part, Native.substr.Gives [.str s, .int start, .int count] (.str part) ↔
        ∃ front back, s = front ++ part ++ back ∧ Native.strlen.Gives [.str front] (.int start) ∧
          Native.strlen.Gives [.str part] (.int count)) ∧
    (∀ n k, Native.strlen.Gives [.str s] (.int n) → 0 ≤ k.toInt → k.toInt ≤ n.toInt →
      ∃ front back, Native.substr.Gives [.str s, .int 0, .int k] (.str front) ∧
        Native.substr.Gives [.str s, .int k, .int (n - k)] (.str back) ∧
        Native.sconcat.Gives [.str front, .str back] (.str s)) ∧
    ∃ joined, Native.sconcat.Gives [.str s, .str t] (.str joined) ∧
      ∀ n m, Native.strlen.Gives [.str s] (.int n) → Native.strlen.Gives [.str t] (.int m) →
        (∀ sum, Native.strlen.Gives [.str joined] (.int sum) ↔ sum.toInt = n.toInt + m.toInt) ∧
        Native.substr.Gives [.str joined, .int n, .int m] (.str t) := by
  refine ⟨fun n => Native.strlen_gives_iff, Native.strlen_gives, ?_, ?_, s ++ t, ?_, ?_⟩
  · intro start count
    refine ⟨Native.substr_gives_some, Native.substr_fails_iff, fun part => ?_⟩
    simp only [Native.strlen_gives_iff]
    exact Native.substr_gives_iff
  · intro n k length nonneg within
    exact Native.substr_split length nonneg within
  · exact Native.sconcat_gives_iff.mpr rfl
  · intro n m front back
    refine ⟨fun sum => ?_, Native.substr_joined front back⟩
    rw [Native.strlen_gives_iff] at front back ⊢
    rw [front, back, String.length_append, Nat.cast_add]

/-- Characters of one to four bytes, cut in the middle and joined with one more. -/
theorem wide_characters_count_once :
    FitsWord "aé€𝄞".length ∧ Native.strlen.Gives [.str "aé€𝄞"] (.int 4) ∧
      Native.strlen.Gives [.str "ß"] (.int 1) ∧
      (∃ front back, Native.substr.Gives [.str "aé€𝄞", .int 0, .int 2] (.str front) ∧
        Native.substr.Gives [.str "aé€𝄞", .int 2, .int (4 - 2)] (.str back) ∧
        Native.sconcat.Gives [.str front, .str back] (.str "aé€𝄞")) ∧
      ∃ joined, Native.sconcat.Gives [.str "aé€𝄞", .str "ß"] (.str joined) ∧
        Native.substr.Gives [.str joined, .int 4, .int 1] (.str "ß") := by
  obtain ⟨counts, fits, -, splits, joined, joins, parts⟩ := texts_are_counted_in_characters "aé€𝄞" "ß"
  have word : FitsWord "aé€𝄞".length := by
    unfold FitsWord
    decide
  obtain ⟨n, four⟩ := fits word
  obtain rfl : n = 4 := Int64.toInt_inj.mp ((counts n).mp four)
  have one : Native.strlen.Gives [.str "ß"] (.int 1) := Native.strlen_gives_iff.mpr rfl
  exact ⟨word, four, one, splits 4 2 four (by decide) (by decide), joined, joins,
    (parts 4 1 four one).2⟩

end Lu
