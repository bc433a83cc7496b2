import LooseExpr.Proofs.Decimal.Reading
import Mathlib.Algebra.Order.Field.Rat
import Mathlib.Order.Compare
import Mathlib.Tactic.FieldSimp
import Mathlib.Tactic.Positivity
import Mathlib.Tactic.TFAE
/-!
# The number that a decimal denotes

`Decimal.value` is the rational number `mantissa / 10 ^ scale`.  Comparing decimals at their common scale compares
their values (`Decimal.cmp_eq_compare_value`), whether they are normal or not.  On normal decimals nothing else is
needed: the value determines the decimal (`Decimal.Normal.eq_of_value_eq`), and so does its text.

All the operations on decimals stay within the normal ones.  `Decimal.Obtained` is what they make, one out of the other,
in any number of steps.
-/
namespace LooseExpr

namespace Decimal

def value (d : Decimal) : ℚ := d.mantissa / 10 ^ d.scale

theorem cast_tenPow (n : Nat) : ((tenPow n : Nat) : ℚ) = 10 ^ n := by
  simp [tenPow]

theorem rescale_eq_value_mul {d : Decimal} {scale : Nat} (h : d.scale ≤ scale) :
    (d.rescale scale : ℚ) = d.value * 10 ^ scale := by
  have hsplit : (10 : ℚ) ^ scale = 10 ^ d.scale * 10 ^ (scale - d.scale) := by
    rw [← pow_add, Nat.add_sub_cancel' h]
  have hpos : (10 : ℚ) ^ d.scale ≠ 0 := by positivity
  unfold rescale value
  push_cast
  rw [cast_tenPow, hsplit]
  field_simp

/-- **Comparing at a common scale is comparing the values.** -/
theorem cmp_eq_compare_value (a b : Decimal) : a.cmp b = compare a.value b.value := by
  have hpos : (0 : ℚ) < 10 ^ max a.scale b.scale := by positivity
  have ha := rescale_eq_value_mul (d := a) (le_max_left a.scale b.scale)
  have hb := rescale_eq_value_mul (d := b) (le_max_right a.scale b.scale)
  unfold cmp
  simp only
  rcases lt_trichotomy a.value b.value with hlt | heq | hgt
  · have hscaled : (a.rescale (max a.scale b.scale) : ℚ) < b.rescale (max a.scale b.scale) := by
      rw [ha, hb]
      exact mul_lt_mul_of_pos_right hlt hpos
    rw [compare_lt_iff_lt.2 hlt, compare_lt_iff_lt.2 (by exact_mod_cast hscaled)]
  · have hscaled : (a.rescale (max a.scale b.scale) : ℚ) = b.rescale (max a.scale b.scale) := by
      rw [ha, hb, heq]
    rw [compare_eq_iff_eq.2 heq, compare_eq_iff_eq.2 (by exact_mod_cast hscaled)]
  · have hscaled : (b.rescale (max a.scale b.scale) : ℚ) < a.rescale (max a.scale b.scale) := by
      rw [ha, hb]
      exact mul_lt_mul_of_pos_right hgt hpos
    rw [compare_gt_iff_gt.2 hgt, compare_gt_iff_gt.2 (by exact_mod_cast hscaled)]

theorem value_strip : ∀ (scale : Nat) (mantissa : Int), (strip mantissa scale).value = mantissa / 10 ^ scale
  | 0, mantissa => by simp [strip, value]
  | scale + 1, mantissa => by
    unfold strip
    split
    · rename_i hm
      have hten : (mantissa : ℚ) = (mantissa / 10 : Int) * 10 := by
        exact_mod_cast (Int.ediv_mul_cancel (Int.dvd_of_emod_eq_zero hm)).symm
      rw [value_strip scale, hten, pow_succ]
      field_simp
    · rfl

theorem value_normalize (mantissa : Int) (scale : Nat) : (normalize mantissa scale).value = mantissa / 10 ^ scale := by
  unfold normalize
  split
  · rename_i hm
    simp [value, hm]
  · exact value_strip scale mantissa

theorem scale_strip_le : ∀ (scale : Nat) (mantissa : Int), (strip mantissa scale).scale ≤ scale
  | 0, _ => Nat.le_refl 0
  | scale + 1, mantissa => by
    unfold strip
    split
    · exact Nat.le_succ_of_le (scale_strip_le scale (mantissa / 10))
    · exact Nat.le_refl _

theorem scale_normalize_le (mantissa : Int) (scale : Nat) : (normalize mantissa scale).scale ≤ scale := by
  unfold normalize
  split
  · exact Nat.zero_le scale
  · exact scale_strip_le scale mantissa

/-! ## Normal decimals and their values -/

namespace Normal

theorem scale_eq_zero_of_dvd {d : Decimal} (h : d.Normal) (hdvd : (10 : Int) ∣ d.mantissa) : d.scale = 0 := by
  by_contra hscale
  exact h.2 (Nat.pos_of_ne_zero hscale) hdvd

/-- A normal decimal has the smallest scale among all that have its value. -/
theorem scale_le {a b : Decimal} (hb : b.Normal) (h : a.value = b.value) : b.scale ≤ a.scale := by
  by_contra hlt
  have hle : a.scale ≤ b.scale := by omega
  have hm : (b.mantissa : ℚ) = a.rescale b.scale := by
    rw [rescale_eq_value_mul hle, h, value]
    field_simp
  have hmantissa : b.mantissa = a.rescale b.scale := by exact_mod_cast hm
  -- the digits that `a` lacks are zeros at the end of `b`
  have hten : (10 : Int) ∣ tenPow (b.scale - a.scale) := by
    unfold tenPow
    exact_mod_cast dvd_pow_self 10 (by omega : b.scale - a.scale ≠ 0)
  have hdvd : (10 : Int) ∣ b.mantissa := by
    rw [hmantissa]
    exact Dvd.dvd.mul_left hten a.mantissa
  have := hb.scale_eq_zero_of_dvd hdvd
  omega

/-- **Normal decimals of the same value are the same.** -/
theorem eq_of_value_eq {a b : Decimal} (ha : a.Normal) (hb : b.Normal) (h : a.value = b.value) : a = b := by
  have hscale : a.scale = b.scale := le_antisymm (ha.scale_le h.symm) (hb.scale_le h)
  have hpos : (10 : ℚ) ^ b.scale ≠ 0 := by positivity
  have hm : (a.mantissa : ℚ) = b.mantissa := by
    unfold value at h
    rw [hscale] at h
    exact (div_left_inj' hpos).1 h
  obtain ⟨mantissa, scale⟩ := a
  obtain ⟨mantissa', scale'⟩ := b
  simp only at hscale hm
  rw [hscale, show mantissa = mantissa' by exact_mod_cast hm]

theorem eq_of_toText_eq {a b : Decimal} (ha : a.Normal) (hb : b.Normal) (h : a.toText = b.toText) : a = b := by
  have hread := ofText?_toText ha
  rw [h, ofText?_toText hb] at hread
  exact (Option.some.inj hread).symm

/-- **No fraction digits, no fraction.** -/
theorem isInteger_iff {d : Decimal} (h : d.Normal) : d.isInteger = true ↔ ∃ n : Int, d.value = n := by
  unfold isInteger
  rw [beq_iff_eq]
  constructor
  · intro hscale
    exact ⟨d.mantissa, by simp [value, hscale]⟩
  · rintro ⟨n, hn⟩
    have hle : d.scale ≤ (ofInt n).scale := h.scale_le (by rw [hn]; simp [value, ofInt])
    exact Nat.le_zero.1 hle

theorem neg {d : Decimal} (h : d.Normal) : (-d).Normal := by
  refine ⟨fun hzero => h.1 ?_, fun hpos hdvd => h.2 hpos ?_⟩
  · exact Int.neg_eq_zero.1 hzero
  · exact Int.dvd_neg.1 hdvd

theorem abs {d : Decimal} (h : d.Normal) : d.abs.Normal := by
  refine ⟨fun hzero => h.1 ?_, fun hpos hdvd => h.2 hpos ?_⟩
  · simpa [Decimal.abs] using hzero
  · exact Int.dvd_natAbs.1 hdvd

end Normal

/-! ## What the operations make -/

theorem ofText?_normal {text : String} {d : Decimal} (h : ofText? text = some d) : d.Normal := by
  obtain ⟨n, -, rfl⟩ := Option.map_eq_some_iff.1 h
  unfold Numeral.toDecimal
  simp only
  split
  · exact normalize_normal _ _
  · exact normalize_normal _ _

/-- A decimal that some finite sequence of operations comes to. -/
inductive Obtained : Decimal → Prop where
  | normalize (mantissa : Int) (scale : UInt32) : Obtained (normalize mantissa scale.toNat)
  | zero : Obtained zero
  | one : Obtained one
  | ofInt (n : Int) : Obtained (ofInt n)
  | parse {text : String} {d : Decimal} : parse text = .ok d → Obtained d
  | add {a b : Decimal} : Obtained a → Obtained b → Obtained (a + b)
  | sub {a b : Decimal} : Obtained a → Obtained b → Obtained (a - b)
  | neg {a : Decimal} : Obtained a → Obtained (-a)
  | abs {a : Decimal} : Obtained a → Obtained a.abs
  | mul {a b d : Decimal} : Obtained a → Obtained b → a.mul b = .ok d → Obtained d
  | div {a b d : Decimal} (precision : UInt32) : Obtained a → Obtained b → a.div? b precision.toNat = some d → Obtained d
  | rem {a b d : Decimal} : Obtained a → Obtained b → a.rem? b = some d → Obtained d
  | intDiv {a b d : Decimal} : Obtained a → Obtained b → a.intDiv? b = some d → Obtained d
  | pow {a d : Decimal} (n : Int64) (precision : UInt32) : Obtained a → a.pow n.toInt precision.toNat = .ok d → Obtained d

theorem Obtained.normal {d : Decimal} (h : Obtained d) : d.Normal := by
  induction h with
  | normalize mantissa scale => exact normalize_normal _ _
  | zero => exact ofInt_normal 0
  | one => exact ofInt_normal 1
  | ofInt n => exact ofInt_normal n
  | @parse text d hparse =>
    unfold Decimal.parse at hparse
    split at hparse
    · rename_i d' hread
      cases hparse
      exact ofText?_normal hread
    · cases hparse
  | add _ _ _ _ => exact normalize_normal _ _
  | sub _ _ _ _ => exact normalize_normal _ _
  | neg _ ih => exact ih.neg
  | abs _ ih => exact ih.abs
  | mul _ _ hmul _ _ => exact mul_normal hmul
  | div _ _ _ hdiv _ _ => exact div?_normal hdiv
  | rem _ _ hrem _ _ => exact rem?_normal hrem
  | intDiv _ _ hdiv _ _ => exact intDiv?_normal hdiv
  | pow _ _ _ hpow _ => exact pow_normal hpow

/-- **On all that is ever obtained, equality of decimals is equality of numbers**: every decimal is normal, equal
decimals, equal values, the answer of `cmp` and equal texts come to the same, and a whole number is one without a
fraction. -/
theorem equality_is_numeric {a b : Decimal} (ha : Obtained a) (hb : Obtained b) :
    a.Normal ∧ b.Normal ∧
      [a = b, a.value = b.value, a.cmp b = .eq, a.toText = b.toText].TFAE ∧
      (a.isInteger = true ↔ ∃ n : Int, a.value = n) := by
  refine ⟨ha.normal, hb.normal, ?_, ha.normal.isInteger_iff⟩
  tfae_have 1 → 2 := congrArg value
  tfae_have 2 → 1 := ha.normal.eq_of_value_eq hb.normal
  tfae_have 2 ↔ 3 := by rw [cmp_eq_compare_value, compare_eq_iff_eq]
  tfae_have 1 → 4 := congrArg toText
  tfae_have 4 → 1 := ha.normal.eq_of_toText_eq hb.normal
  tfae_finish

/-- An eighth by division and a quarter read from a text: two different decimals, of different values and texts. -/
theorem equality_is_numeric_eighth_quarter :
    (ofInt 1).div? (ofInt 8) 34 = some ⟨125, 3⟩ ∧ parse "+2.50e-1" = .ok ⟨25, 2⟩ ∧
      [(⟨125, 3⟩ : Decimal) = ⟨25, 2⟩, value ⟨125, 3⟩ = value ⟨25, 2⟩, cmp ⟨125, 3⟩ ⟨25, 2⟩ = .eq,
        toText ⟨125, 3⟩ = toText ⟨25, 2⟩].TFAE ∧
      (isInteger ⟨125, 3⟩ = true ↔ ∃ n : Int, value ⟨125, 3⟩ = n) := by
  have heighth : (ofInt 1).div? (ofInt 8) (34 : UInt32).toNat = some ⟨125, 3⟩ := by rfl
  have hquarter : parse "+2.50e-1" = .ok ⟨25, 2⟩ := by rfl
  have hboth := equality_is_numeric (.div 34 (.ofInt 1) (.ofInt 8) heighth) (.parse hquarter)
  exact ⟨heighth, hquarter, hboth.2.2⟩

end Decimal

end LooseExpr
