import Mathlib.Algebra.Order.Group.Unbundled.Int
import Lu.Proofs.Run.Actions
import Lu.Proofs.Run.Power

namespace Lu

/-!
Integer arithmetic is exact: an operator gives the number that it stands for, or says that the number
is no word of 64 bits. Quotients and powers are cut off toward zero.
-/

/-- The outcome of an operation is its result, or an overflow if the result is no word. -/
inductive Exactly (operation : String) (result : Int) : Except RuntimeErrorKind Value → Prop
  | fits {n : Int64} : n.toInt = result → Exactly operation result (.ok (.int n))
  | overflows : ¬ FitsWord result → Exactly operation result (.error (.integerOverflow operation))

/-- What a division and a remainder come to. Only the least word divided by minus one has a quotient
that is no word; its remainder is refused as well. -/
inductive Divides (a b : Int64) : Except RuntimeErrorKind Value → Except RuntimeErrorKind Value → Prop
  | byZero : b = 0 → Divides a b (.error .divisionByZero) (.error .moduloByZero)
  | overflows : a.toInt = -2 ^ 63 → b.toInt = -1 →
      Divides a b (.error (.integerOverflow "division")) (.error (.integerOverflow "remainder"))
  | exact {q r : Int64} : b ≠ 0 → ¬ (a.toInt = -2 ^ 63 ∧ b.toInt = -1) →
      a.toInt = q.toInt * b.toInt + r.toInt → |r.toInt| < |b.toInt| →
      (r.toInt = 0 ∨ r.toInt.sign = a.toInt.sign) → Divides a b (.ok (.int q)) (.ok (.int r))

section Exact

variable {operation : String} {result : Int} {a b : Int64}

theorem checkedInt_exactly (operation : String) (result : Int) :
    Exactly operation result ((checkedInt operation result).map .int) := by
  unfold checkedInt
  split
  · rename_i found
    exact .fits (int64?_eq_some.mp found)
  · rename_i none
    exact .overflows (int64?_eq_none.mp none)

theorem checkedInt_of_fits (operation : String) (fits : FitsWord result) :
    ∃ n : Int64, n.toInt = result ∧ (checkedInt operation result).map Value.int = .ok (.int n) := by
  cases found : int64? result with
  | some n => exact ⟨n, int64?_eq_some.mp found, by rw [checkedInt, found]; rfl⟩
  | none => exact absurd fits (int64?_eq_none.mp found)

/-- A quotient is at most half as large as the dividend, if the divisor is no unit. -/
theorem fitsWord_tdiv (nonzero : b.toInt ≠ 0) (other : ¬ (a.toInt = -2 ^ 63 ∧ b.toInt = -1)) :
    FitsWord (a.toInt.tdiv b.toInt) := by
  have dividend := fitsWord_toInt a
  unfold FitsWord at dividend ⊢
  by_cases unit : b.toInt = -1
  · rw [unit, Int.tdiv_neg, Int.tdiv_one]
    omega
  by_cases one : b.toInt = 1
  · rw [one, Int.tdiv_one]
    exact dividend
  · have half : (a.toInt.tdiv b.toInt).natAbs ≤ a.toInt.natAbs / 2 := by
      rw [Int.natAbs_tdiv]
      exact Nat.div_le_div_left (by omega) (by decide)
    omega

theorem natAbs_tmod_lt (nonzero : b.toInt ≠ 0) :
    (a.toInt.tmod b.toInt).natAbs < b.toInt.natAbs := by
  rw [Int.natAbs_tmod]
  exact Nat.mod_lt _ (by omega)

theorem fitsWord_tmod (nonzero : b.toInt ≠ 0) : FitsWord (a.toInt.tmod b.toInt) := by
  have divisor := fitsWord_toInt b
  have small := natAbs_tmod_lt (a := a) nonzero
  unfold FitsWord at divisor ⊢
  omega

theorem sign_tmod (x y : Int) : x.tmod y = 0 ∨ (x.tmod y).sign = x.sign := by
  rw [Int.sign_tmod, ← Int.sign_eq_zero_iff_zero, Int.sign_tmod]
  split
  · exact .inl rfl
  · exact .inr rfl

theorem division_divides (a b : Int64) :
    Divides a b (BinaryOp.div.eval (.int a) (.int b)) (BinaryOp.mod.eval (.int a) (.int b)) := by
  have least : leastInt = -2 ^ 63 := rfl
  simp only [BinaryOp.eval, intBinary]
  by_cases zero : b = 0
  · rw [if_pos zero, if_pos zero]
    exact .byZero zero
  have nonzero : b.toInt ≠ 0 := fun same => zero (Int64.toInt_inj.mp same)
  rw [if_neg zero, if_neg zero]
  by_cases edge : a.toInt = leastInt ∧ b.toInt = -1
  · rw [if_pos edge, edge.1, edge.2]
    exact .overflows (edge.1.trans least) edge.2
  · rw [if_neg edge]
    obtain ⟨q, quotient, division⟩ := checkedInt_of_fits "division" (fitsWord_tdiv nonzero edge)
    obtain ⟨r, remainder, rest⟩ := checkedInt_of_fits "remainder" (fitsWord_tmod (a := a) nonzero)
    rw [division, rest]
    refine .exact zero edge ?_ ?_ ?_
    · rw [quotient, remainder, Int.mul_comm, Int.mul_tdiv_add_tmod]
    · rw [remainder, Int.abs_eq_natAbs, Int.abs_eq_natAbs]
      exact_mod_cast natAbs_tmod_lt nonzero
    · rw [remainder]
      exact sign_tmod a.toInt b.toInt

theorem checkedInt_ne_divisionByZero (operation : String) (result : Int) :
    checkedInt operation result ≠ .error .divisionByZero := by
  unfold checkedInt
  split <;> simp

/-- Only zero has no power, and only with a negative exponent. -/
theorem intPow_divisionByZero_iff :
    intPow a b = .error .divisionByZero ↔ a.toInt = 0 ∧ b.toInt < 0 := by
  constructor
  · intro outcome
    by_contra defined
    rw [intPow_eq defined] at outcome
    exact checkedInt_ne_divisionByZero _ _ outcome
  · rintro ⟨zero, negative⟩
    exact intPow_undefined zero negative

theorem pow_divisionByZero_iff :
    BinaryOp.pow.eval (.int a) (.int b) = .error .divisionByZero ↔ a.toInt = 0 ∧ b.toInt < 0 := by
  rw [← intPow_divisionByZero_iff]
  change (intPow a b).map Value.int = _ ↔ _
  cases intPow a b with
  | ok power => simp [Except.map]
  | error kind => simp [Except.map]

/-- The built-in function is the operator. -/
theorem call_pow (env : Environment) : Native.pow.call [.int a, .int b] env =
    Native.quiet env (BinaryOp.pow.eval (.int a) (.int b)) := by
  change (Native.answer (intPow a b >>= fun power => .ok (.int power))).result env = _
  rw [Native.answer_result]
  change _ = Native.quiet env ((intPow a b).map Value.int)
  cases intPow a b <;> rfl

end Exact

/-- Sums, differences and products are exact or overflow. So are quotients with their remainders, and
powers, as the operator and as the built-in function: a power is the real one cut off toward zero, and
only zero has none with a negative exponent. -/
theorem int_arithmetic_is_exact (a b : Int64) :
    Exactly "addition" (a.toInt + b.toInt) (BinaryOp.add.eval (.int a) (.int b)) ∧
    Exactly "subtraction" (a.toInt - b.toInt) (BinaryOp.sub.eval (.int a) (.int b)) ∧
    Exactly "multiplication" (a.toInt * b.toInt) (BinaryOp.mul.eval (.int a) (.int b)) ∧
    Divides a b (BinaryOp.div.eval (.int a) (.int b)) (BinaryOp.mod.eval (.int a) (.int b)) ∧
    (BinaryOp.pow.eval (.int a) (.int b) = .error .divisionByZero ↔ a.toInt = 0 ∧ b.toInt < 0) ∧
    (¬ (a.toInt = 0 ∧ b.toInt < 0) → Exactly "exponentiation"
      (towardZero ((a.toInt : ℝ) ^ b.toInt)) (BinaryOp.pow.eval (.int a) (.int b))) ∧
    ∀ env, Native.pow.call [.int a, .int b] env =
      Native.quiet env (BinaryOp.pow.eval (.int a) (.int b)) := by
  refine ⟨checkedInt_exactly .., checkedInt_exactly .., checkedInt_exactly .., division_divides a b,
    pow_divisionByZero_iff, fun defined => ?_, call_pow⟩
  change Exactly _ _ ((intPow a b).map Value.int)
  rw [intPow_eq defined]
  exact checkedInt_exactly ..

/-- The power that is the least word is exact: nothing overflows on the way to it. -/
theorem least_word_is_a_power :
    ¬ ((-2 : Int64).toInt = 0 ∧ (63 : Int64).toInt < 0) ∧
    BinaryOp.pow.eval (.int (-2)) (.int 63) = .ok (.int (-9223372036854775808)) := by
  have defined : ¬ ((-2 : Int64).toInt = 0 ∧ (63 : Int64).toInt < 0) := by decide
  have power := (int_arithmetic_is_exact (-2) 63).2.2.2.2.2.1 defined
  rw [towardZero_zpow_of_nonneg (by decide)] at power
  refine ⟨defined, ?_⟩
  generalize BinaryOp.pow.eval (.int (-2)) (.int 63) = outcome at power ⊢
  cases power with
  | fits value =>
    have least : (-2 : Int) ^ 63 = (-9223372036854775808 : Int64).toInt := by decide
    rw [Int64.toInt_inj.mp (value.trans least)]
  | overflows large => exact absurd (by unfold FitsWord; decide) large

end Lu
