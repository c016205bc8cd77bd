import Lu.Check.Error
import Lu.Proofs.Except

namespace Lu

/-!
Checks that only an error of the program can stop, with what they give otherwise.
-/

theorem Attribute.isSet_eq_false {slot : String} {α : Type} {empty : Attribute slot α} :
    empty.isSet = false ↔ empty.value? = none := by
  simp [isSet]

namespace Check

variable {α β : Type}

/-- The check gives a value of which the condition holds, or finds an error. It meets no fault. -/
def Ends (post : α → Prop) : Check α → Prop
  | .ok value => post value
  | .error (.error _) => True
  | .error (.fault _) => False

variable {post mid : α → Prop} {goal : β → Prop} {check : Check α} {next : α → Check β}

theorem Ends.pure {value : α} (holds : post value) : Ends post (Pure.pure value : Check α) := holds

theorem Ends.fail {kind : CheckErrorKind} {span : Span} : Ends post (Check.fail kind span) := trivial

theorem Ends.bind (first : Ends mid check)
    (rest : ∀ value, check = .ok value → mid value → Ends goal (next value)) :
    Ends goal (check >>= next) := by
  cases run : check with
  | ok value =>
    rw [run] at first
    exact rest value run first
  | error failure =>
    rw [run] at first
    cases failure with
    | error e => trivial
    | fault f => exact first

theorem Ends.ite {condition : Prop} [Decidable condition] {other : Check α}
    (yes : condition → Ends post check) (no : ¬ condition → Ends post other) :
    Ends post (if condition then check else other) := by
  split
  · exact yes ‹_›
  · exact no ‹_›

theorem Ends.mono {more : α → Prop} (ends : Ends post check)
    (imp : ∀ value, check = .ok value → post value → more value) : Ends more check := by
  cases run : check with
  | ok value =>
    rw [run] at ends
    exact imp value run ends
  | error failure =>
    rw [run] at ends
    cases failure with
    | error e => trivial
    | fault f => exact ends

theorem Ends.get {slot : String} {filled : Attribute slot α} (set : filled.isSet = true) :
    Ends (fun value => filled.value? = some value) (lift filled.get) := by
  obtain ⟨value, stored⟩ := Option.isSome_iff_exists.mp set
  rw [Attribute.get_eq_ok.mpr stored]
  exact stored

theorem Ends.set {slot : String} {empty : Attribute slot α} (unset : empty.isSet = false)
    (value : α) : Ends (· = ⟨some value⟩) (lift (empty.set value)) := by
  rw [Attribute.set_eq_ok.mpr ⟨Attribute.isSet_eq_false.mp unset, rfl⟩]
  exact rfl

theorem Ends.of_ok (ends : Ends post check) {value : α} (run : check = .ok value) :
    post value := by
  rw [run] at ends
  exact ends

theorem Ends.faultless (ends : Ends post check) (f : Fault) : check ≠ .error (.fault f) := by
  rintro rfl
  exact ends

end Check

end Lu
