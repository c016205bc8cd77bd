import Mathlib.Algebra.Order.Archimedean.Real.Basic
import Mathlib.Algebra.Order.Field.Power
import Mathlib.Tactic.Linarith
import Lu.Proofs.Decimal.Word
import Lu.Run.Operators

namespace Lu

/-!
Powers of integers: squaring the base, with a limit at every step, comes to the power itself, and stops
just if that is too large.
-/

section Sizes

variable {x b : Int} {factor : Int} {k : Nat}

/-- What is too large stays so when it is multiplied. -/
theorem not_fits_mul (large : ¬ FitsWord x) (positive : 1 ≤ factor) : ¬ FitsWord (x * factor) := by
  unfold FitsWord at large ⊢
  rcases le_or_gt 0 x with nonneg | negative
  · have grows := le_mul_of_one_le_right nonneg positive
    omega
  · have grows := le_mul_of_one_le_right (neg_nonneg.mpr negative.le) positive
    rw [neg_mul] at grows
    omega

theorem one_le_square_pow (nonzero : b ≠ 0) (k : Nat) : 1 ≤ (b * b) ^ k :=
  one_le_pow₀ (by have := mul_self_pos.mpr nonzero; omega)

/-- A square that is too large is larger than the least word as well, which is no square. -/
theorem lt_square (large : ¬ FitsWord (b * b)) : 2 ^ 63 < b * b := by
  have nonneg := mul_self_nonneg b
  unfold FitsWord at large
  rcases lt_or_ge (b.natAbs) 3037000500 with small | great
  · have square := Nat.mul_le_mul (Nat.le_of_lt_succ small) (Nat.le_of_lt_succ small)
    rw [← Int.natAbs_mul_self] at large
    omega
  · have square := Nat.mul_le_mul great great
    rw [← Int.natAbs_mul_self]
    omega

theorem not_fits_square_pow (nonzero : x ≠ 0) (large : ¬ FitsWord (b * b)) (positive : 1 ≤ k) :
    ¬ FitsWord (x * (b * b) ^ k) := by
  have square := lt_square large
  have power : b * b ≤ (b * b) ^ k := le_self_pow₀ (by omega) (by omega)
  have unit : 1 ≤ |x| := Int.one_le_abs nonzero
  have size : (b * b) ^ k ≤ |x * (b * b) ^ k| := by
    rw [abs_mul, abs_of_pos (by omega : 0 < (b * b) ^ k)]
    exact le_mul_of_one_le_left (by omega) unit
  unfold FitsWord
  rintro ⟨least, most⟩
  have := abs_le.mpr ⟨least, most.le⟩
  omega

theorem not_fits_pow (base : b ≠ 0 ∧ b ≠ 1 ∧ b ≠ -1) (large : 64 ≤ k) : ¬ FitsWord (b ^ k) := by
  have two : (2 : Int) ≤ |b| := by
    rcases abs_cases b with ⟨same, sign⟩ | ⟨same, sign⟩ <;> rw [same] <;> omega
  have size : (2 : Int) ^ 64 ≤ |b ^ k| := by
    rw [abs_pow]
    exact (pow_le_pow_right₀ (by decide) large).trans (pow_le_pow_left₀ (by decide) two k)
  unfold FitsWord
  rintro ⟨least, most⟩
  have := abs_le.mpr ⟨least, most.le⟩
  omega

end Sizes

section Squaring

variable {number base : Int64}

/-- The base counts once where the exponent is odd. -/
theorem timesOdd?_eq (number base : Int64) (exponent : Nat) :
    timesOdd? number base exponent = int64? (number.toInt * base.toInt ^ (exponent % 2)) := by
  rcases Nat.mod_two_eq_zero_or_one exponent with even | odd
  · rw [timesOdd?, even, if_neg (by decide), pow_zero, mul_one]
    exact (int64?_eq_some.mpr rfl).symm
  · rw [timesOdd?, odd, if_pos rfl, pow_one, product?]

/-- No product on the way is too large unless the power is. -/
theorem timesPower?_eq (factor : number.toInt ≠ 0) (nonzero : base.toInt ≠ 0) (exponent : Nat) :
    timesPower? number base exponent = int64? (number.toInt * base.toInt ^ exponent) := by
  induction exponent using Nat.strongRecOn generalizing number base with
  | ind exponent ih =>
    rw [timesPower?]
    split
    · rename_i zero
      rw [zero, pow_zero, mul_one]
      exact (int64?_eq_some.mpr rfl).symm
    split
    · rename_i one
      rw [one, pow_one, product?]
    · rename_i notZero notOne
      have half : 1 ≤ exponent / 2 := by omega
      have split : number.toInt * base.toInt ^ exponent = number.toInt * base.toInt ^ (exponent % 2) *
          (base.toInt * base.toInt) ^ (exponent / 2) := by
        rw [mul_assoc, ← pow_two, ← pow_mul, ← pow_add, Nat.mod_add_div]
      rw [timesOdd?_eq, split]
      cases first : int64? (number.toInt * base.toInt ^ (exponent % 2)) with
      | none =>
        have large := not_fits_mul (int64?_eq_none.mp first) (one_le_square_pow nonzero (exponent / 2))
        exact (int64?_eq_none.mpr large).symm
      | some product =>
        have value := int64?_eq_some.mp first
        have productNonzero : product.toInt ≠ 0 := by
          rw [value]
          exact mul_ne_zero factor (pow_ne_zero _ nonzero)
        rw [← value]
        cases squared : product? base base with
        | none =>
          have large := not_fits_square_pow productNonzero (int64?_eq_none.mp squared) half
          exact (int64?_eq_none.mpr large).symm
        | some square =>
          have squareValue := int64?_eq_some.mp squared
          rw [← squareValue]
          refine ih (exponent / 2) (by omega) productNonzero ?_
          rw [squareValue]
          exact mul_ne_zero nonzero nonzero

end Squaring

theorem checkedInt_toInt (operation : String) (n : Int64) : checkedInt operation n.toInt = .ok n := by
  rw [checkedInt, int64?_eq_some.mpr rfl]

/-- The whole number next to a real one on the side of zero. -/
noncomputable def towardZero (x : ℝ) : ℤ := if 0 ≤ x then ⌊x⌋ else ⌈x⌉

theorem towardZero_intCast (n : ℤ) : towardZero n = n := by
  simp [towardZero]

theorem towardZero_of_abs_lt_one {x : ℝ} (small : |x| < 1) : towardZero x = 0 := by
  obtain ⟨above, below⟩ := abs_lt.mp small
  unfold towardZero
  split
  · rename_i nonneg
    exact Int.floor_eq_zero_iff.mpr ⟨nonneg, below⟩
  · rename_i negative
    exact Int.ceil_eq_zero_iff.mpr ⟨above, (not_le.mp negative).le⟩

section Powers

variable {base exponent : Int64}

/-- The real power of a negative unit is a sign. -/
theorem neg_one_zpow_eq (e : ℤ) : (-1 : ℝ) ^ e = ((if e % 2 = 0 then 1 else -1 : ℤ) : ℝ) := by
  rcases Int.even_or_odd e with even | odd
  · rw [even.neg_one_zpow, if_pos (Int.even_iff.mp even), Int.cast_one]
  · rw [odd.neg_one_zpow, if_neg (by have := Int.odd_iff.mp odd; omega), Int.cast_neg, Int.cast_one]

theorem towardZero_zpow_of_neg {b e : ℤ} (base : b ≠ 0 ∧ b ≠ 1 ∧ b ≠ -1) (negative : e < 0) :
    towardZero ((b : ℝ) ^ e) = 0 := by
  have one : (1 : ℤ) < |b| := by
    rcases abs_cases b with ⟨same, sign⟩ | ⟨same, sign⟩ <;> rw [same] <;> omega
  refine towardZero_of_abs_lt_one ?_
  rw [abs_zpow]
  exact zpow_lt_one_of_neg₀ (by exact_mod_cast one) negative

theorem towardZero_zpow_of_nonneg {b e : ℤ} (nonneg : 0 ≤ e) :
    towardZero ((b : ℝ) ^ e) = b ^ e.toNat := by
  obtain ⟨n, rfl⟩ := Int.eq_ofNat_of_zero_le nonneg
  rw [zpow_natCast, ← Int.cast_pow, towardZero_intCast, Int.toNat_natCast]

/-- The exponents that are no 32-bit words are as much too large as those from 64 on. -/
theorem timesPower?_one (nonzero : base.toInt ≠ 0) (unit : base.toInt ≠ 1 ∧ base.toInt ≠ -1)
    (nonneg : 0 ≤ exponent.toInt) :
    (if exponent.toInt ≤ lastExponent then timesPower? 1 base exponent.toInt.toNat else none) =
      int64? (base.toInt ^ exponent.toInt.toNat) := by
  split
  · have one : (1 : Int64).toInt = 1 := rfl
    rw [timesPower?_eq (by rw [one]; decide) nonzero, one, one_mul]
  · rename_i large
    have last : lastExponent = 4294967295 := rfl
    exact (int64?_eq_none.mpr (not_fits_pow ⟨nonzero, unit⟩ (by omega))).symm

/-- A power is the real one cut off toward zero, if that fits. -/
theorem intPow_eq (defined : ¬ (base.toInt = 0 ∧ exponent.toInt < 0)) :
    intPow base exponent =
      checkedInt "exponentiation" (towardZero ((base.toInt : ℝ) ^ exponent.toInt)) := by
  have result {n : Int64} {x : ℝ} (value : x = (n.toInt : ℝ)) :
      .ok n = checkedInt "exponentiation" (towardZero x) := by
    rw [value, towardZero_intCast, checkedInt_toInt]
  unfold intPow
  dsimp only
  split
  · rename_i zero
    rw [if_neg fun negative => defined ⟨zero, negative⟩]
    refine result ?_
    rw [zero, Int.cast_zero]
    split
    · rename_i none
      rw [none]
      simp
    · rename_i some
      rw [zero_zpow _ some]
      simp
  split
  · rename_i one
    refine result ?_
    rw [one, Int.cast_one, one_zpow]
    simp
  split
  · rename_i negOne
    refine result ?_
    rw [negOne, Int.cast_neg, Int.cast_one, neg_one_zpow_eq]
    split <;> rfl
  rename_i nonzero notOne notNegOne
  split
  · rename_i negative
    rw [towardZero_zpow_of_neg ⟨nonzero, notOne, notNegOne⟩ negative]
    exact (checkedInt_toInt "exponentiation" 0).symm
  · rename_i nonneg
    rw [timesPower?_one nonzero ⟨notOne, notNegOne⟩ (by omega),
      towardZero_zpow_of_nonneg (by omega), checkedInt]

theorem intPow_undefined (zero : base.toInt = 0) (negative : exponent.toInt < 0) :
    intPow base exponent = .error .divisionByZero := by
  rw [intPow, if_pos zero, if_pos negative]

end Powers

end Lu
