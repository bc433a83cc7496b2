import LooseExpr.Proofs.Decimal.Value
/-!
# Sums, differences and products

The operations on decimals are those on the numbers they denote.  Two operands meet at their common scale, where adding
mantissas adds values; the zeros that are dropped afterwards change no value.  Only a product can fail, and only if its
scale cannot be held.
-/
namespace LooseExpr

namespace Decimal

theorem value_normalize_eq {mantissa : Int} {scale : Nat} {q : ℚ} (h : (mantissa : ℚ) = q * 10 ^ scale) :
    (normalize mantissa scale).value = q := by
  rw [value_normalize, h]
  field_simp

theorem value_add (a b : Decimal) : (a + b).value = a.value + b.value := by
  refine value_normalize_eq ?_
  rw [Int.cast_add, rescale_eq_value_mul (le_max_left a.scale b.scale),
    rescale_eq_value_mul (le_max_right a.scale b.scale), add_mul]

theorem value_sub (a b : Decimal) : (a - b).value = a.value - b.value := by
  refine value_normalize_eq ?_
  rw [Int.cast_sub, rescale_eq_value_mul (le_max_left a.scale b.scale),
    rescale_eq_value_mul (le_max_right a.scale b.scale), sub_mul]

theorem value_neg (a : Decimal) : (-a).value = -a.value := by
  change ((-a.mantissa : Int) : ℚ) / 10 ^ a.scale = -(a.mantissa / 10 ^ a.scale)
  rw [Int.cast_neg, neg_div]

/-- **A product fails exactly if its scale is too large**, which is what it reports. -/
theorem mul_eq_error_iff {a b : Decimal} {fault : ArithmeticFault} :
    a.mul b = .error fault ↔ maxScale < a.scale + b.scale ∧ fault = .productScale a.scale b.scale := by
  unfold mul
  by_cases hscale : a.scale + b.scale ≤ maxScale
  · simp [hscale]
  · have hlarge : maxScale < a.scale + b.scale := by omega
    simp [hscale, hlarge, eq_comm]

theorem value_mul {a b d : Decimal} (h : a.mul b = .ok d) : d.value = a.value * b.value := by
  unfold mul at h
  split at h
  · cases h
    rw [value_normalize, Int.cast_mul, pow_add, value, value]
    field_simp
  · cases h

theorem exists_mul {a b : Decimal} (h : a.scale + b.scale ≤ maxScale) :
    ∃ d, a.mul b = .ok d ∧ d.value = a.value * b.value := by
  cases hmul : a.mul b with
  | ok d => exact ⟨d, rfl, value_mul hmul⟩
  | error fault =>
    have := (mul_eq_error_iff.1 hmul).1
    omega

/-! ## Order -/

instance : Std.TransCmp cmp where
  eq_swap {a b} := by
    rw [cmp_eq_compare_value, cmp_eq_compare_value]
    exact Std.OrientedCmp.eq_swap
  isLE_trans {a b c} hab hbc := by
    rw [cmp_eq_compare_value] at hab hbc ⊢
    exact Std.TransCmp.isLE_trans hab hbc

theorem Normal.cmp_eq_iff {a b : Decimal} (ha : a.Normal) (hb : b.Normal) : a.cmp b = .eq ↔ a = b := by
  rw [cmp_eq_compare_value, compare_eq_iff_eq]
  exact ⟨ha.eq_of_value_eq hb, congrArg value⟩

/-- **Arithmetic is exact.**  Sums, differences and opposites have the values that their operands give, a product too
unless its scale is too large, and `cmp` is the order of the values, by which no two normal decimals are level.
Calculations with these operators come to the same at every precision. -/
theorem arithmetic_is_exact {a b : Decimal} (ha : a.Normal) (hb : b.Normal) :
    (a + b).value = a.value + b.value ∧ (a - b).value = a.value - b.value ∧ (-a).value = -a.value ∧
    (a.cmp b = compare a.value b.value ∧ Std.TransCmp cmp ∧ (a.cmp b = .eq ↔ a = b)) ∧
    (∀ fault, a.mul b = .error fault ↔ maxScale < a.scale + b.scale ∧ fault = .productScale a.scale b.scale) ∧
    (a.scale + b.scale ≤ maxScale → ∃ d, a.mul b = .ok d ∧ d.value = a.value * b.value) ∧
    ∀ precision,
      (∃ d, NumberOp.plus.compute a b precision = .ok d ∧ d.value = a.value + b.value) ∧
      (∃ d, NumberOp.minus.compute a b precision = .ok d ∧ d.value = a.value - b.value) ∧
      (∀ fault, NumberOp.multiply.compute a b precision = .error fault ↔
        maxScale < a.scale + b.scale ∧ fault = .productScale a.scale b.scale) ∧
      (a.scale + b.scale ≤ maxScale →
        ∃ d, NumberOp.multiply.compute a b precision = .ok d ∧ d.value = a.value * b.value) := by
  refine ⟨value_add a b, value_sub a b, value_neg a, ⟨cmp_eq_compare_value a b, inferInstance, ha.cmp_eq_iff hb⟩,
    fun fault => mul_eq_error_iff, exists_mul, fun precision => ?_⟩
  exact ⟨⟨_, rfl, value_add a b⟩, ⟨_, rfl, value_sub a b⟩, fun fault => mul_eq_error_iff, exists_mul⟩

/-- A one in the last place there is, and a tenth: they have a sum, but no product. -/
theorem arithmetic_is_exact_at_maxScale :
    (⟨1, maxScale⟩ + ⟨1, 1⟩ : Decimal).value = value ⟨1, maxScale⟩ + value ⟨1, 1⟩ ∧
      mul ⟨1, maxScale⟩ ⟨1, 1⟩ = .error (.productScale maxScale 1) := by
  have hsmallest : Normal ⟨1, maxScale⟩ := ⟨by decide, by decide⟩
  have htenth : Normal ⟨1, 1⟩ := ⟨by decide, by decide⟩
  have hexact := arithmetic_is_exact hsmallest htenth
  exact ⟨hexact.1, (hexact.2.2.2.2.1 _).2 ⟨by decide, rfl⟩⟩

end Decimal

end LooseExpr
