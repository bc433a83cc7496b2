import LooseExpr.Proofs.Decimal.Rounding
/-!
# Division

Division reduces the quotient to lowest terms, so its result depends on nothing but the quotient of the values
(`div?_eq`).  If that has a finite expansion, the result is exact; otherwise it is rounded.  A result that is not zero has
the right sign in any case, but it can come out as zero where 32 bits do not hold what is counted: at the very top of the
precisions, for a quotient below one (`ShiftLost`), and for a denominator of billions of factors (`ScaleLost`).
-/
namespace LooseExpr

namespace Decimal

theorem isZero_iff (d : Decimal) : d.isZero = true ↔ d.value = 0 := by
  rw [isZero, beq_iff_eq, value, div_eq_zero_iff, or_iff_left (by positivity), Int.cast_eq_zero]

theorem isNegative_iff (d : Decimal) : d.isNegative = true ↔ d.value < 0 := by
  rw [isNegative, decide_eq_true_iff, value, div_lt_iff₀ (by positivity), zero_mul, Int.cast_lt_zero]

/-- A fraction of whole numbers in lowest terms, its denominator made positive. -/
theorem lowestTerms (num : Int) {den : Int} (hden : den ≠ 0) :
    (if den.tdiv (Int.gcd num den) < 0 then -num.tdiv (Int.gcd num den) else num.tdiv (Int.gcd num den)) =
        ((num : ℚ) / den).num ∧
      (den.tdiv (Int.gcd num den)).natAbs = ((num : ℚ) / den).den := by
  have hgcd : 0 < Int.gcd num den := Int.gcd_pos_of_ne_zero_right num hden
  obtain ⟨n, d, hcoprime, hnum, hden'⟩ := Int.exists_gcd_one hgcd
  generalize Int.gcd num den = g at *
  have hg : (g : Int) ≠ 0 := by exact_mod_cast hgcd.ne'
  have hg' : (g : ℚ) ≠ 0 := by exact_mod_cast hgcd.ne'
  have hd : d ≠ 0 := by
    rintro rfl
    exact hden (by rw [hden', zero_mul])
  subst hnum hden'
  rw [Int.mul_tdiv_cancel _ hg, Int.mul_tdiv_cancel _ hg]
  push_cast
  rw [mul_div_mul_right _ _ hg']
  rcases lt_or_gt_of_ne hd with hneg | hpos
  · have hopposite : (n : ℚ) / d = ((-n : Int) : ℚ) / ((-d : Int) : ℚ) := by
      push_cast
      rw [neg_div_neg_eq]
    have hcoprime' : (-n).natAbs.Coprime (-d).natAbs := by
      rw [Int.natAbs_neg, Int.natAbs_neg]
      exact hcoprime
    rw [if_pos hneg, hopposite, Rat.num_div_eq_of_coprime (by omega) hcoprime']
    refine ⟨rfl, ?_⟩
    have := Rat.den_div_eq_of_coprime (by omega : 0 < -d) hcoprime'
    omega
  · rw [if_neg (by omega), Rat.num_div_eq_of_coprime hpos hcoprime]
    refine ⟨rfl, ?_⟩
    have := Rat.den_div_eq_of_coprime hpos hcoprime
    omega

theorem value_div_value (a b : Decimal) :
    a.value / b.value = (a.mantissa * tenPow b.scale : Int) / (b.mantissa * tenPow a.scale : Int) := by
  push_cast
  rw [cast_tenPow, cast_tenPow, value, value]
  field_simp

/-- The fraction that a division comes to: in lowest terms, and with the sign on the numerator. -/
def fraction (a b : Decimal) : Int × Int :=
  let num := a.mantissa * tenPow b.scale
  let den := b.mantissa * tenPow a.scale
  let g : Int := Int.gcd num den
  if den.tdiv g < 0 then (-num.tdiv g, -den.tdiv g) else (num.tdiv g, den.tdiv g)

theorem div?_eq_ofRatio {a b : Decimal} (ha : a.isZero = false) (hb : b.isZero = false) (precision : Nat) :
    a.div? b precision = some (ofRatio (fraction a b).1 (fraction a b).2.natAbs precision) := by
  unfold div? fraction
  simp only [ha, hb, Bool.false_eq_true, if_false]
  split
  next => rw [Int.natAbs_neg]
  next => rfl

/-- **The denominator of the fraction is positive**, and nothing divides both parts of it. -/
theorem fraction_eq (a : Decimal) {b : Decimal} (hb : b.isZero = false) :
    fraction a b = ((a.value / b.value).num, ((a.value / b.value).den : Int)) := by
  have hden : b.mantissa * tenPow a.scale ≠ 0 :=
    mul_ne_zero (fun h => by simp [isZero, h] at hb) (by exact_mod_cast (Nat.pow_pos (by decide)).ne')
  obtain ⟨hnum, hden⟩ := lowestTerms (a.mantissa * tenPow b.scale) hden
  rw [value_div_value, ← hnum, ← hden]
  unfold fraction
  simp only
  split
  next => exact Prod.ext rfl (by simp only; omega)
  next => exact Prod.ext rfl (by simp only; omega)

/-- **Division reduces to lowest terms**: it looks at nothing but the quotient of the values. -/
theorem div?_eq {a b : Decimal} (hb : b.value ≠ 0) (precision : Nat) :
    a.div? b precision = some (ofRatio (a.value / b.value).num (a.value / b.value).den precision) := by
  have hb' : b.isZero = false := Bool.eq_false_iff.2 fun h => hb ((isZero_iff b).1 h)
  by_cases ha : a.isZero = true
  · unfold div?
    rw [hb', if_neg Bool.false_ne_true, if_pos ha, (isZero_iff a).1 ha, zero_div]
    rfl
  · rw [div?_eq_ofRatio (Bool.eq_false_iff.2 ha) hb', fraction_eq a hb', Int.natAbs_natCast]

theorem div?_eq_none_iff {a b : Decimal} {precision : Nat} : a.div? b precision = none ↔ b.value = 0 := by
  constructor
  · intro h
    by_contra hb
    rw [div?_eq hb] at h
    cases h
  · intro hb
    unfold div?
    rw [if_pos ((isZero_iff b).2 hb)]

theorem value_ofRatio_of_some {q : ℚ} {k : Nat} (h : terminatingScale? q.den = some k) (precision : Nat) :
    (ofRatio q.num q.den precision).value = q.num * (tenPow k / q.den : Nat) / 10 ^ k := by
  unfold ofRatio
  rw [h]
  simp only
  rw [value_normalize, Int.cast_mul, Int.cast_natCast]

/-- A denominator that divides a power of ten is multiplied up to it. -/
theorem value_ofRatio_of_terminating {q : ℚ} {k : Nat} (hheld : FactorsHeld q.den)
    (h : terminatingScale? q.den = some k) (precision : Nat) :
    (ofRatio q.num q.den precision).value = q ∧ (ofRatio q.num q.den precision).scale ≤ k := by
  obtain ⟨c, hc⟩ := (dvd_pow_iff_of_terminatingScale? q.den_pos hheld h k).2 (Nat.le_refl k)
  have hfactor : tenPow k / q.den = c := Nat.div_eq_of_eq_mul_right q.den_pos hc
  have hten : (10 : ℚ) ^ k = q.den * c := by exact_mod_cast hc
  have hcpos : (c : ℚ) ≠ 0 := right_ne_zero_of_mul (hten ▸ by positivity : (q.den : ℚ) * c ≠ 0)
  constructor
  · rw [value_ofRatio_of_some h, hfactor, hten, mul_div_mul_right _ _ hcpos, Rat.num_div_den]
  · unfold ofRatio
    rw [h]
    exact scale_normalize_le _ _

/-- What a unit of the digits is worth, as far as 32 bits hold the scale. -/
def heldUnit (scale : Int) : ℚ := if 0 ≤ scale then (10 ^ word32 scale)⁻¹ else 10 ^ word32 scale.natAbs

theorem heldUnit_pos (scale : Int) : 0 < heldUnit scale := by
  unfold heldUnit
  split <;> positivity

theorem heldUnit_eq {scale : Int} (h : scale.natAbs ≤ maxScale) : heldUnit scale = 10 ^ (-scale) := by
  unfold heldUnit
  by_cases hscale : 0 ≤ scale
  · rw [if_pos hscale, word32_of_nonneg hscale h, zpow_natAbs_of_nonneg hscale, zpow_neg]
  · rw [if_neg hscale, word32_natCast h, zpow_natAbs_of_neg (not_le.1 hscale)]

theorem value_roundQuotient (num : Int) (den precision : Nat) :
    (roundQuotient num den precision).value =
      (if num < 0 then -1 else 1) * ((roundedDigits num.natAbs den precision).1 *
        heldUnit (roundedDigits num.natAbs den precision).2) := by
  unfold roundQuotient heldUnit
  generalize roundedDigits num.natAbs den precision = rounded
  obtain ⟨digits, scale⟩ := rounded
  simp only
  by_cases h : 0 ≤ scale
  · rw [if_pos h, if_pos h, value_normalize, div_eq_mul_inv]
    split <;> push_cast <;> ring
  · rw [if_neg h, if_neg h, value_normalize, pow_zero, div_one, Int.cast_mul, Int.cast_natCast, cast_tenPow]
    split <;> push_cast <;> ring

/-- **The division comes to rounding**, and 32 bits hold the shift and the scale that it computes. -/
structure RoundingFits (q : ℚ) (precision : Nat) : Prop where
  endless : terminatingScale? q.den = none
  shift : (roundingShift q.num.natAbs q.den precision).natAbs ≤ maxScale
  scale : (roundedDigits q.num.natAbs q.den precision).2.natAbs ≤ maxScale

theorem num_ne_zero_of_endless {q : ℚ} (h : terminatingScale? q.den = none) : q.num ≠ 0 := by
  intro hnum
  rw [Rat.num_eq_zero.1 hnum] at h
  cases h

theorem natAbs_div_den (q : ℚ) : (q.num.natAbs : ℚ) / q.den = |q| := by
  conv_rhs => rw [← Rat.num_div_den q]
  rw [abs_div, Nat.abs_cast, Nat.cast_natAbs, Int.cast_abs]

theorem not_hasExpansion {q : ℚ} (h : terminatingScale? q.den = none) (k : Nat) : ¬ HasExpansion q k :=
  fun hq => not_dvd_pow_of_terminatingScale? q.den_pos h k ((hasExpansion_iff q k).1 hq)

theorem not_hasExpansion_abs {q : ℚ} (h : terminatingScale? q.den = none) (k : Nat) : ¬ HasExpansion |q| k := by
  rintro ⟨n, hn⟩
  have hq := not_hasExpansion h k
  rcases abs_choice q with habs | habs
  · exact hq ⟨n, by rw [← hn, habs]⟩
  · refine hq ⟨-n, ?_⟩
    rw [Int.cast_neg, neg_div, ← hn, habs, neg_neg]

/-- **A quotient that does not terminate is rounded to the nearest.** -/
theorem ofRatio_near {q : ℚ} {precision : Nat} (h : RoundingFits q (max precision 1)) :
    ∃ e : Int, (10 : ℚ) ^ e ≤ |q| ∧ |q| < 10 ^ (e + 1) ∧
      NearestMultiple (10 ^ (e - (max precision 1 : Nat) + 1)) q (ofRatio q.num q.den precision).value := by
  have hnum : 0 < q.num.natAbs := Int.natAbs_pos.2 (num_ne_zero_of_endless h.endless)
  have habs := natAbs_div_den q
  obtain ⟨e, hlow, hhigh, hscale, hnear⟩ := roundedDigits_near hnum q.den_pos h.shift
    (by rw [habs]; exact not_hasExpansion_abs h.endless)
  have hvalue : (ofRatio q.num q.den precision).value = (if q.num < 0 then -1 else 1) *
      ((roundedDigits q.num.natAbs q.den (max precision 1)).1 * 10 ^ (e - (max precision 1 : Nat) + 1)) := by
    unfold ofRatio
    rw [h.endless]
    simp only
    rw [value_roundQuotient, heldUnit_eq h.scale, hscale, neg_neg]
  rw [habs] at hlow hhigh hnear
  refine ⟨e, hlow, hhigh, ?_, ?_⟩
  · refine ⟨(if q.num < 0 then -1 else 1) * (roundedDigits q.num.natAbs q.den (max precision 1)).1, ?_⟩
    rw [hvalue]
    push_cast
    ring
  · rw [hvalue]
    by_cases hneg : q.num < 0
    · rw [abs_of_neg (Rat.num_neg.1 hneg)] at hnear
      rw [if_pos hneg, ← abs_neg]
      convert hnear using 2
      ring
    · rw [abs_of_nonneg (Rat.num_nonneg.1 (not_lt.1 hneg))] at hnear
      rw [if_neg hneg, one_mul]
      exact hnear

/-- **Division is exact when it can be, and rounds to the nearest otherwise.**  It fails only for a divisor that is zero.
A quotient with a finite expansion, of no more digits than a decimal may have, is exact at every precision.  Any other
one, if 32 bits hold the shift and the scale, is the nearest multiple of a unit in the last digit asked for; it is never
half a unit off, has no more digits than that, and has the sign of the quotient. -/
theorem div?_exact_or_nearest (a b : Decimal) (precision : Nat) :
    (a.div? b precision = none ↔ b.value = 0) ∧
    ∀ d, a.div? b precision = some d →
      ((∃ k ≤ maxScale, HasExpansion (a.value / b.value) k) → d.value = a.value / b.value ∧ d.scale ≤ maxScale) ∧
      ((∀ k ≤ maxScale, ¬ HasExpansion (a.value / b.value) k) → RoundingFits (a.value / b.value) (max precision 1) →
        ∃ e : Int, (10 : ℚ) ^ e ≤ |a.value / b.value| ∧ |a.value / b.value| < 10 ^ (e + 1) ∧
          (∃ n : Int, d.value = n * 10 ^ (e - (max precision 1 : Nat) + 1)) ∧
          |d.value - a.value / b.value| < 10 ^ (e - (max precision 1 : Nat) + 1) / 2 ∧
          (∀ n : Int, n * 10 ^ (e - (max precision 1 : Nat) + 1) ≠ d.value →
            |d.value - a.value / b.value| < |n * 10 ^ (e - (max precision 1 : Nat) + 1) - a.value / b.value|) ∧
          HasDigits d.value (max precision 1) ∧ SignType.sign d.value = SignType.sign (a.value / b.value)) := by
  refine ⟨div?_eq_none_iff, fun d hd => ?_⟩
  have hb : b.value ≠ 0 := fun hzero => by
    rw [div?_eq_none_iff.2 hzero] at hd
    cases hd
  rw [div?_eq hb] at hd
  cases hd
  generalize a.value / b.value = q
  constructor
  · rintro ⟨k, hk, hexpansion⟩
    have hdvd := (hasExpansion_iff q k).1 hexpansion
    cases hscale : terminatingScale? q.den with
    | none => exact absurd hexpansion (not_hasExpansion hscale k)
    | some least =>
      have hheld := factorsHeld_of_dvd_pow hdvd hk
      obtain ⟨hvalue, hle⟩ := value_ofRatio_of_terminating hheld hscale precision
      have hleast := (dvd_pow_iff_of_terminatingScale? q.den_pos hheld hscale k).1 hdvd
      exact ⟨hvalue, hle.trans (hleast.trans hk)⟩
  · intro _ hfits
    obtain ⟨e, hlow, hhigh, hnear⟩ := ofRatio_near hfits
    have hp : 0 < max precision 1 := by omega
    exact ⟨e, hlow, hhigh, hnear.multiple, hnear.near, fun n hn => hnear.lt_of_ne hn, hnear.hasDigits hp hhigh,
      hnear.sign_eq hp hlow⟩

theorem quotient_ofInt {m n : Int} (hn : 0 < n) (h : m.natAbs.Coprime n.natAbs) :
    ((ofInt m).value / (ofInt n).value).num = m ∧ ((ofInt m).value / (ofInt n).value).den = n.natAbs := by
  have hq : (ofInt m).value / (ofInt n).value = m / n := by simp [ofInt, value]
  have hden := Rat.den_div_eq_of_coprime hn h
  rw [hq]
  exact ⟨Rat.num_div_eq_of_coprime hn h, by omega⟩

/-- Two thirds, to five digits: rounded up, to the nearest hundred thousandth. -/
theorem div?_two_thirds :
    (ofInt 2).div? (ofInt 3) 5 = some ⟨66667, 5⟩ ∧
      RoundingFits ((ofInt 2).value / (ofInt 3).value) 5 ∧
      ∃ e : Int, (10 : ℚ) ^ e ≤ |(ofInt 2).value / (ofInt 3).value| ∧
        |value ⟨66667, 5⟩ - (ofInt 2).value / (ofInt 3).value| < 10 ^ (e - (5 : Nat) + 1) / 2 := by
  obtain ⟨hnum, hden⟩ := quotient_ofInt (m := 2) (n := 3) (by decide) (by decide)
  have hdiv : (ofInt 2).div? (ofInt 3) 5 = some ⟨66667, 5⟩ := by rfl
  have hfits : RoundingFits ((ofInt 2).value / (ofInt 3).value) 5 := by
    refine ⟨by rw [hden]; rfl, ?_, ?_⟩
    · rw [hden, hnum]
      decide
    · rw [hden, hnum]
      decide
  have hnone : ∀ k ≤ maxScale, ¬ HasExpansion ((ofInt 2).value / (ofInt 3).value) k := fun k _ =>
    not_hasExpansion hfits.endless k
  obtain ⟨e, hlow, -, -, hnear, -⟩ := ((div?_exact_or_nearest (ofInt 2) (ofInt 3) 5).2 _ hdiv).2 hnone hfits
  exact ⟨hdiv, hfits, e, hlow, hnear⟩

/-! ## Signs -/

/-- **The shift is lost**: it takes more than 32 bits, and what they keep of it does not bring up a digit. -/
def ShiftLost (q : ℚ) (precision : Nat) : Prop :=
  terminatingScale? q.den = none ∧ (maxScale : Int) < roundingShift q.num.natAbs q.den precision ∧
    q.num.natAbs * tenPow (word32 (roundingShift q.num.natAbs q.den precision)) < q.den

/-- **The scale is lost**: it takes more than 32 bits, and the power of ten for what they keep of it is below the
denominator. -/
def ScaleLost (q : ℚ) : Prop := ∃ k, terminatingScale? q.den = some k ∧ tenPow k < q.den

theorem value_ofRatio_eq_zero_iff {q : ℚ} (hq : q ≠ 0) (precision : Nat) :
    (ofRatio q.num q.den precision).value = 0 ↔ ScaleLost q ∨ ShiftLost q (max precision 1) := by
  cases hscale : terminatingScale? q.den with
  | some k =>
    have hnum : (q.num : ℚ) ≠ 0 := by exact_mod_cast Rat.num_ne_zero.2 hq
    rw [value_ofRatio_of_some hscale, div_eq_zero_iff, or_iff_left (by positivity), mul_eq_zero, or_iff_right hnum,
      Nat.cast_eq_zero, Nat.div_eq_zero_iff_lt q.den_pos, ScaleLost, ShiftLost, hscale]
    simp
  | none =>
    have hnum : 0 < q.num.natAbs := Int.natAbs_pos.2 (num_ne_zero_of_endless hscale)
    have hsign : (if q.num < 0 then -1 else 1 : ℚ) ≠ 0 := by split <;> norm_num
    have hscaleLost : ¬ ScaleLost q := fun ⟨_, hsome, _⟩ => by
      rw [hscale] at hsome
      cases hsome
    rw [or_iff_right hscaleLost]
    unfold ofRatio ShiftLost
    rw [hscale]
    simp only [true_and]
    rw [value_roundQuotient, mul_eq_zero, or_iff_right hsign, mul_eq_zero, or_iff_left (heldUnit_pos _).ne',
      Nat.cast_eq_zero]
    exact roundedDigits_eq_zero_iff hnum q.den_pos (by omega)

theorem value_ofRatio_neg_iff {q : ℚ} {precision : Nat} (h : (ofRatio q.num q.den precision).value ≠ 0) :
    (ofRatio q.num q.den precision).value < 0 ↔ q < 0 := by
  cases hscale : terminatingScale? q.den with
  | some k =>
    rw [value_ofRatio_of_some hscale] at h ⊢
    have hfactor : (0 : ℚ) < (tenPow k / q.den : Nat) :=
      lt_of_le_of_ne (Nat.cast_nonneg _) (right_ne_zero_of_mul (div_ne_zero_iff.1 h).1).symm
    rw [div_lt_iff₀ (by positivity), zero_mul, mul_neg_iff, or_iff_right (fun h => h.2.not_gt hfactor),
      and_iff_left hfactor, Int.cast_lt_zero, Rat.num_neg]
  | none =>
    unfold ofRatio at h ⊢
    rw [hscale] at h ⊢
    simp only at h ⊢
    rw [value_roundQuotient] at h ⊢
    have hdigits := right_ne_zero_of_mul h
    have hpos := lt_of_le_of_ne (mul_nonneg (Nat.cast_nonneg _) (heldUnit_pos _).le) hdigits.symm
    by_cases hneg : q.num < 0
    · rw [if_pos hneg]
      exact iff_of_true (by linarith) (Rat.num_neg.1 hneg)
    · rw [if_neg hneg]
      exact iff_of_false (by linarith) (fun hq => hneg (Rat.num_neg.2 hq))

theorem not_shiftLost {q : ℚ} {precision : Nat} (h : 1 ≤ |q| ∨ precision + digitCount q.den ≤ maxScale) :
    ¬ ShiftLost q precision := by
  rintro ⟨hscale, hfar, hlost⟩
  rcases h with hone | hbits
  · rw [← natAbs_div_den, one_le_div (by exact_mod_cast q.den_pos)] at hone
    have hle : q.den ≤ q.num.natAbs := by exact_mod_cast hone
    have hpos : 0 < tenPow (word32 (roundingShift q.num.natAbs q.den precision)) := Nat.pow_pos (by decide)
    exact absurd (hle.trans (Nat.le_mul_of_pos_right _ hpos)) (not_le.2 hlost)
  · have hdigit : 0 < digitCount q.num.natAbs := by rw [digitCount_eq]; omega
    unfold roundingShift at hfar
    omega

theorem not_lost_of_hasExpansion {q : ℚ} {k : Nat} (h : HasExpansion q k) (hk : k ≤ maxScale) (precision : Nat) :
    ¬ ScaleLost q ∧ ¬ ShiftLost q precision := by
  constructor
  · rintro ⟨least, hscale, hless⟩
    have hheld := factorsHeld_of_dvd_pow ((hasExpansion_iff q k).1 h) hk
    have hdvd := (dvd_pow_iff_of_terminatingScale? q.den_pos hheld hscale least).2 (Nat.le_refl least)
    exact absurd (Nat.le_of_dvd (Nat.pow_pos (by decide)) hdvd) (not_le.2 hless)
  · exact fun hlost => not_hasExpansion hlost.1 k h

theorem not_scaleLost_of_endless {q : ℚ} (h : ∀ k, ¬ HasExpansion q k) : ¬ ScaleLost q := by
  rintro ⟨k, hscale, -⟩
  obtain ⟨j, hdvd⟩ := exists_dvd_pow_of_terminatingScale? q.den_pos hscale
  exact h j ((hasExpansion_iff q j).2 hdvd)

/-- **The sign of a quotient.**  Dividing by a number that is not zero has a result.  That is zero only if the scale or
the shift is lost.  Neither happens to a quotient with an expansion of no more digits than a decimal may have, nor to one
without an end that is at least one, or is asked for at a precision that leaves room for the digits of the denominator.
If the result is not zero, it is negative exactly if the operands have opposite signs. -/
theorem quotient_sign {a b : Decimal} (ha : a.isZero = false) (hb : b.isZero = false) (precision : Nat) :
    ∃ d, a.div? b precision = some d ∧
      (d.isZero = true ↔ ScaleLost (a.value / b.value) ∨ ShiftLost (a.value / b.value) (max precision 1)) ∧
      ((∃ k ≤ maxScale, HasExpansion (a.value / b.value) k) → d.isZero = false) ∧
      ((∀ k, ¬ HasExpansion (a.value / b.value) k) →
        1 ≤ |a.value / b.value| ∨ max precision 1 + digitCount (a.value / b.value).den ≤ maxScale → d.isZero = false) ∧
      (d.isZero = false → d.isNegative = (a.isNegative != b.isNegative)) := by
  have ha' : a.value ≠ 0 := fun h => by rw [(isZero_iff a).2 h] at ha; cases ha
  have hb' : b.value ≠ 0 := fun h => by rw [(isZero_iff b).2 h] at hb; cases hb
  have hzero := (isZero_iff _).trans (value_ofRatio_eq_zero_iff (div_ne_zero ha' hb') precision)
  refine ⟨_, div?_eq hb' precision, hzero, ?_, fun hendless hroom => ?_, fun hd => ?_⟩
  · rintro ⟨k, hk, hexpansion⟩
    rw [← Bool.not_eq_true, hzero, not_or]
    exact not_lost_of_hasExpansion hexpansion hk _
  · rw [← Bool.not_eq_true, hzero, not_or]
    exact ⟨not_scaleLost_of_endless hendless, not_shiftLost hroom⟩
  · rw [← Bool.not_eq_true, isZero_iff] at hd
    rw [Bool.eq_iff_iff, isNegative_iff, value_ofRatio_neg_iff hd, bne_iff_ne, ne_eq, Bool.eq_iff_iff, isNegative_iff,
      isNegative_iff, div_neg_iff]
    rcases lt_or_gt_of_ne ha' with ha | ha <;> rcases lt_or_gt_of_ne hb' with hb | hb <;>
      simp [ha, hb, ha.not_gt, hb.not_gt]

/-- One by three at the greatest precision for which the shift is held. -/
theorem quotient_sign_third :
    (ofInt 1).isZero = false ∧ (ofInt 3).isZero = false ∧
      ∃ d, (ofInt 1).div? (ofInt 3) 4294967294 = some d ∧ d.isZero = false ∧ d.isNegative = false := by
  obtain ⟨-, hden⟩ := quotient_ofInt (m := 1) (n := 3) (by decide) (by decide)
  obtain ⟨d, hd, -, -, hroom, hsign⟩ := quotient_sign (a := ofInt 1) (b := ofInt 3) rfl rfl 4294967294
  rw [hden] at hroom
  have hzero := hroom (not_hasExpansion (by rw [hden]; rfl)) (.inr (by decide))
  exact ⟨rfl, rfl, d, hd, hzero, hsign hzero⟩

/-- One by three at the next precision: 32 bits keep nothing of the shift, and the quotient comes out as zero. -/
theorem third_lost :
    (ofInt 1).Normal ∧ (ofInt 3).Normal ∧ (ofInt 1).isZero = false ∧ (ofInt 3).isZero = false ∧
      (ofInt 1).div? (ofInt 3) 4294967295 = some zero :=
  ⟨ofInt_normal 1, ofInt_normal 3, rfl, rfl, rfl⟩

end Decimal

end LooseExpr
