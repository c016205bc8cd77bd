import Mathlib.Algebra.Group.Int.Defs
import Lu.Decimal.Reading

namespace Lu

/-!
The numbers that are words of 64 bits.
-/

/-- The number is a word of 64 bits. -/
def FitsWord (x : Int) : Prop := -2 ^ 63 ≤ x ∧ x < 2 ^ 63

theorem fitsWord_toInt (n : Int64) : FitsWord n.toInt := ⟨n.le_toInt, n.toInt_lt⟩

theorem int64?_eq_some {x : Int} {n : Int64} : int64? x = some n ↔ n.toInt = x := by
  have least : leastInt = -2 ^ 63 := rfl
  have greatest : greatestInt = 2 ^ 63 - 1 := rfl
  constructor
  · intro found
    unfold int64? at found
    split at found
    · cases found
      exact Int64.toInt_ofInt_of_le (by omega) (by omega)
    · cases found
  · rintro rfl
    have fits := fitsWord_toInt n
    unfold FitsWord at fits
    rw [int64?, if_pos (by omega), Int64.ofInt_toInt]

theorem int64?_eq_none {x : Int} : int64? x = none ↔ ¬ FitsWord x := by
  have least : leastInt = -2 ^ 63 := rfl
  have greatest : greatestInt = 2 ^ 63 - 1 := rfl
  unfold int64? FitsWord
  split
  · simp only [reduceCtorEq, false_iff, Decidable.not_not]
    omega
  · simp only [true_iff]
    omega

end Lu
