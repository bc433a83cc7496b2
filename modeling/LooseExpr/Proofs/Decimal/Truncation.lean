import LooseExpr.Proofs.Decimal.Division
import Mathlib.Data.Rat.Floor
import Mathlib.Data.Sign.Basic
/-!
# Whole quotients and remainders

Both are taken at the common scale of the operands.  The whole quotient forgets that scale, which cancels; the remainder
keeps it, and drops the zeros at the end of its fraction.  So the two fit together as numbers do: the dividend is the
divisor times the quotient, plus the remainder.

The quotient is rounded toward zero (`towardZero`).  That is not a second fact: a remainder that is smaller than the
divisor and has the sign of the dividend leaves no other quotient (`towardZero_div_eq`).
-/
namespace LooseExpr

/-- The whole part of a number. -/
def towardZero (q : ℚ) : ℤ := if 0 ≤ q then ⌊q⌋ else ⌈q⌉

theorem towardZero_intCast (n : ℤ) : towardZero n = n := by
  simp [towardZero]

/-- **What is left over decides the quotient.** -/
theorem towardZero_div_eq {x y r : ℚ} {n : ℤ} (hy : y ≠ 0) (hx : x = y * n + r) (hr : |r| < |y|)
    (hsign : r = 0 ∨ SignType.sign r = SignType.sign x) : towardZero (x / y) = n := by
  have hsplit : x / y = n + r / y := by
    rw [hx]
    field_simp
  rcases hsign with rfl | hsign
  · rw [hsplit, zero_div, add_zero, towardZero_intCast]
  · have hsmall : |r / y| < 1 := by rw [abs_div, div_lt_one (abs_pos.2 hy)]; exact hr
    have hsign' : SignType.sign (r / y) = SignType.sign (x / y) := by
      rw [div_eq_mul_inv, div_eq_mul_inv, sign_mul, sign_mul, hsign]
    obtain ⟨hlow, hhigh⟩ := abs_lt.1 hsmall
    unfold towardZero
    by_cases hle : 0 ≤ x / y
    · have hrest : 0 ≤ r / y := sign_nonneg_iff.1 (hsign' ▸ sign_nonneg_iff.2 hle)
      rw [if_pos hle, hsplit, Int.floor_eq_iff]
      constructor <;> linarith
    · have hrest : r / y ≤ 0 := sign_nonpos_iff.1 (hsign' ▸ sign_nonpos_iff.2 (not_le.1 hle).le)
      rw [if_neg hle, hsplit, Int.ceil_eq_iff]
      constructor <;> linarith

theorem abs_tmod_lt (m : ℤ) {n : ℤ} (hn : n ≠ 0) : |m.tmod n| < |n| := by
  have hlt : (m.tmod n).natAbs < n.natAbs := by
    rw [Int.natAbs_tmod]
    exact Nat.mod_lt _ (Int.natAbs_pos.2 hn)
  rw [Int.abs_eq_natAbs, Int.abs_eq_natAbs]
  exact_mod_cast hlt

theorem tmod_eq_zero_or_sign (m n : ℤ) :
    m.tmod n = 0 ∨ SignType.sign (m.tmod n : ℚ) = SignType.sign (m : ℚ) := by
  have hnonneg : ∀ k : ℤ, 0 ≤ k → 0 ≤ k.tmod n := fun k => Int.tmod_nonneg n
  by_cases hzero : m.tmod n = 0
  · exact .inl hzero
  rcases lt_trichotomy m 0 with hm | rfl | hm
  · have hrest : m.tmod n < 0 := by
      have := hnonneg (-m) (by omega)
      rw [Int.neg_tmod] at this
      omega
    exact .inr (by rw [sign_neg (by exact_mod_cast hrest), sign_neg (by exact_mod_cast hm)])
  · exact absurd (Int.zero_tmod n) hzero
  · have hrest : 0 < m.tmod n := lt_of_le_of_ne (hnonneg m hm.le) (Ne.symm hzero)
    exact .inr (by rw [sign_pos (by exact_mod_cast hrest), sign_pos (by exact_mod_cast hm)])

namespace Decimal

theorem rescale_ne_zero {d : Decimal} {scale : Nat} (h : d.value ≠ 0) (hscale : d.scale ≤ scale) :
    d.rescale scale ≠ 0 := by
  have hvalue := rescale_eq_value_mul hscale
  intro hzero
  rw [hzero, Int.cast_zero, eq_comm, mul_eq_zero] at hvalue
  exact hvalue.elim h (by positivity)

theorem intDiv?_eq_none_iff {a b : Decimal} : a.intDiv? b = none ↔ b.value = 0 := by
  rw [← isZero_iff]
  by_cases hb : b.isZero = true <;> simp [intDiv?, hb]

theorem rem?_eq_none_iff {a b : Decimal} : a.rem? b = none ↔ b.value = 0 := by
  rw [← isZero_iff]
  by_cases hb : b.isZero = true <;> simp [rem?, hb]

/-- **The division law.**  All of it is inherited from the mantissas at the common scale. -/
theorem exists_intDiv?_rem? (a : Decimal) {b : Decimal} (hb : b.value ≠ 0) :
    ∃ (n : ℤ) (r : Decimal), a.intDiv? b = some (ofInt n) ∧ a.rem? b = some r ∧ r.Normal ∧
      a.value = b.value * n + r.value ∧ |r.value| < |b.value| ∧
      (r.value = 0 ∨ SignType.sign r.value = SignType.sign a.value) := by
  have hzero : ¬ b.isZero = true := fun h => hb ((isZero_iff b).1 h)
  have hten : (0 : ℚ) < 10 ^ max a.scale b.scale := by positivity
  have ha' := rescale_eq_value_mul (d := a) (le_max_left a.scale b.scale)
  have hb' := rescale_eq_value_mul (d := b) (le_max_right a.scale b.scale)
  have hne := rescale_ne_zero hb (le_max_right a.scale b.scale)
  refine ⟨(a.rescale (max a.scale b.scale)).tdiv (b.rescale (max a.scale b.scale)), _, if_neg hzero, if_neg hzero,
    normalize_normal _ _, ?_⟩
  rw [value_normalize]
  generalize a.rescale (max a.scale b.scale) = m at *
  generalize b.rescale (max a.scale b.scale) = n at *
  generalize (10 : ℚ) ^ max a.scale b.scale = ten at *
  have hvalue : a.value = m / ten := by rw [ha']; field_simp
  have hvalue' : b.value = n / ten := by rw [hb']; field_simp
  have hlaw : (n : ℚ) * m.tdiv n + m.tmod n = m := by exact_mod_cast Int.mul_tdiv_add_tmod m n
  have hsmall : |(m.tmod n : ℚ)| < |(n : ℚ)| := by exact_mod_cast abs_tmod_lt m hne
  refine ⟨?_, ?_, ?_⟩
  · rw [hvalue, hvalue', ← hlaw]
    field_simp
  · rw [hvalue', abs_div, abs_div]
    exact div_lt_div_of_pos_right hsmall (abs_pos.2 hten.ne')
  · rw [hvalue, div_eq_mul_inv, div_eq_mul_inv, sign_mul, sign_mul, sign_pos (inv_pos.2 hten), mul_one, mul_one]
    exact (tmod_eq_zero_or_sign m n).imp_left (fun hzero => by rw [hzero, Int.cast_zero, zero_mul])

theorem ofQuotient_eq_error_iff {q : Option Decimal} {fault : ArithmeticFault} :
    ArithmeticFault.ofQuotient q = .error fault ↔ q = none ∧ fault = .divisionByZero := by
  cases q <;> simp [ArithmeticFault.ofQuotient, eq_comm]

/-- **Whole quotient and remainder obey the law of truncated division.**  They exist unless the divisor is zero, which
calculations report.  The quotient is the one of the values without its fraction, the dividend is the divisor times the
quotient plus the remainder, and the remainder is smaller than the divisor and has the sign of the dividend, if it is not
zero. -/
theorem truncated_division (a b : Decimal) :
    (a.intDiv? b = none ↔ b.value = 0) ∧ (a.rem? b = none ↔ b.value = 0) ∧
    (b.value ≠ 0 → ∃ q r, a.intDiv? b = some q ∧ a.rem? b = some r ∧ q.Normal ∧ r.Normal ∧
      q.isInteger = true ∧ q.value = towardZero (a.value / b.value) ∧
      a.value = b.value * q.value + r.value ∧ |r.value| < |b.value| ∧
      (r.value = 0 ∨ SignType.sign r.value = SignType.sign a.value) ∧
      ∀ precision, NumberOp.intDivide.compute a b precision = .ok q ∧ NumberOp.modulus.compute a b precision = .ok r) ∧
    ∀ precision fault,
      (NumberOp.intDivide.compute a b precision = .error fault ↔ b.value = 0 ∧ fault = .divisionByZero) ∧
      (NumberOp.modulus.compute a b precision = .error fault ↔ b.value = 0 ∧ fault = .divisionByZero) := by
  refine ⟨intDiv?_eq_none_iff, rem?_eq_none_iff, fun hb => ?_, fun precision fault => ?_⟩
  · obtain ⟨n, r, hq, hr, hnormal, hlaw, hsmall, hsign⟩ := exists_intDiv?_rem? a hb
    have hn : (ofInt n).value = n := by simp [value, ofInt]
    refine ⟨ofInt n, r, hq, hr, ofInt_normal n, hnormal, rfl, ?_, ?_, hsmall, hsign, fun precision => ?_⟩
    · rw [hn, towardZero_div_eq hb hlaw hsmall hsign]
    · rw [hn, hlaw]
    · simp [NumberOp.compute, hq, hr, ArithmeticFault.ofQuotient]
  · constructor
    · rw [← intDiv?_eq_none_iff (a := a)]
      exact ofQuotient_eq_error_iff
    · rw [← rem?_eq_none_iff (a := a)]
      exact ofQuotient_eq_error_iff

/-- Minus seven and a quarter by a half: minus fourteen times, and minus a quarter is left. -/
theorem truncated_division_quarters :
    value ⟨5, 1⟩ ≠ 0 ∧ intDiv? ⟨-725, 2⟩ ⟨5, 1⟩ = some ⟨-14, 0⟩ ∧ rem? ⟨-725, 2⟩ ⟨5, 1⟩ = some ⟨-25, 2⟩ ∧
      value ⟨-14, 0⟩ = towardZero (value ⟨-725, 2⟩ / value ⟨5, 1⟩) ∧
      value ⟨-725, 2⟩ = value ⟨5, 1⟩ * value ⟨-14, 0⟩ + value ⟨-25, 2⟩ ∧ |value ⟨-25, 2⟩| < |value ⟨5, 1⟩| := by
  have hb : value ⟨5, 1⟩ ≠ 0 := by norm_num [value]
  obtain ⟨q, r, hq, hr, -, -, -, hvalue, hlaw, hsmall, -⟩ := (truncated_division ⟨-725, 2⟩ ⟨5, 1⟩).2.2.1 hb
  cases hq
  cases hr
  exact ⟨hb, rfl, rfl, hvalue, hlaw, hsmall⟩

end Decimal

end LooseExpr
