import LooseExpr.Proofs.Decimal.Arithmetic
import LooseExpr.Proofs.Decimal.Truncation
/-!
# Integral powers

Three limits are checked before a power is made: on the exponent, on the scale of the result and on an estimate of its
digits.  Within them the power is exact (`value_exactPower`), and the estimate is an upper bound, since `k` factors of `d`
digits each have a product of at most `d * k` digits (`writtenDigits_exactPower_le`).  A negative exponent divides one by
the power, which only fails if that is zero.
-/
namespace LooseExpr

namespace Decimal

/-- How many digits a whole number is written with. -/
def writtenDigits (n : Int) : Nat := (Nat.toDigits 10 n.natAbs).length

theorem writtenDigits_le_iff {n : Int} {k : Nat} (hk : 0 < k) : writtenDigits n ≤ k ↔ n.natAbs < 10 ^ k :=
  Nat.length_toDigits_le_iff (by decide) hk

theorem digitCount_eq_writtenDigits (n : Int) : digitCount n.natAbs = writtenDigits n := by
  have hpos : 0 < digitCount n.natAbs := by rw [digitCount_eq]; omega
  have hpos' : 0 < writtenDigits n := Nat.length_toDigits_pos
  refine le_antisymm (digitCount_le_of_lt_pow hpos' ?_) ((writtenDigits_le_iff hpos).2 (lt_pow_digitCount _))
  exact (writtenDigits_le_iff hpos').1 (Nat.le_refl _)

/-! ## The power itself -/

/-- The power with a natural exponent, whatever its size. -/
def exactPower (a : Decimal) (k : Nat) : Decimal := normalize (a.mantissa ^ k) (a.scale * k)

theorem value_exactPower (a : Decimal) (k : Nat) : (a.exactPower k).value = a.value ^ k := by
  rw [exactPower, value_normalize, value, div_pow, ← pow_mul, Int.cast_pow]

theorem scale_exactPower_le (a : Decimal) (k : Nat) : (a.exactPower k).scale ≤ a.scale * k := scale_normalize_le _ _

theorem natAbs_strip_le : ∀ (scale : Nat) (mantissa : Int), (strip mantissa scale).mantissa.natAbs ≤ mantissa.natAbs
  | 0, _ => Nat.le_refl _
  | scale + 1, mantissa => by
    unfold strip
    split
    · have := natAbs_strip_le scale (mantissa / 10)
      omega
    · exact Nat.le_refl _

theorem natAbs_normalize_le (mantissa : Int) (scale : Nat) :
    (normalize mantissa scale).mantissa.natAbs ≤ mantissa.natAbs := by
  unfold normalize
  split
  · exact Nat.zero_le _
  · exact natAbs_strip_le scale mantissa

/-- **The estimate is sound.**  A single digit is always there, also if there are no factors. -/
theorem writtenDigits_exactPower_le (a : Decimal) (k : Nat) :
    writtenDigits (a.exactPower k).mantissa ≤ max 1 (writtenDigits a.mantissa * k) := by
  have hbase : a.mantissa.natAbs < 10 ^ writtenDigits a.mantissa :=
    (writtenDigits_le_iff Nat.length_toDigits_pos).1 (Nat.le_refl _)
  have hpower : (a.exactPower k).mantissa.natAbs ≤ a.mantissa.natAbs ^ k := by
    rw [← Int.natAbs_pow]
    exact natAbs_normalize_le _ _
  rw [writtenDigits_le_iff (by omega)]
  refine Nat.lt_of_le_of_lt hpower ?_
  by_cases hk : k = 0
  · simp [hk]
  · calc a.mantissa.natAbs ^ k < (10 ^ writtenDigits a.mantissa) ^ k := Nat.pow_lt_pow_left hbase hk
      _ = 10 ^ (writtenDigits a.mantissa * k) := (pow_mul 10 _ k).symm
      _ ≤ 10 ^ max 1 (writtenDigits a.mantissa * k) := Nat.pow_le_pow_right (by decide) (le_max_right _ _)

/-! ## The limits -/

/-- A power within the limits. -/
structure PowerFits (a : Decimal) (n : Int) : Prop where
  exponent : n.natAbs ≤ 100000
  scale : a.scale * n.natAbs ≤ 4294967295
  digits : writtenDigits a.mantissa * n.natAbs ≤ 1000000

/-- Why there is no power, in the order in which it is found out. -/
inductive PowerRefused (a : Decimal) (n : Int) : ArithmeticFault → Prop where
  | exponent : 100000 < n.natAbs → PowerRefused a n (.exponentRange n)
  | scale : n.natAbs ≤ 100000 → 4294967295 < a.scale * n.natAbs → PowerRefused a n (.powerScale a n)
  | digits : n.natAbs ≤ 100000 → a.scale * n.natAbs ≤ 4294967295 → 1000000 < writtenDigits a.mantissa * n.natAbs →
      PowerRefused a n (.powerDigits n)
  | zero : PowerFits a n → a.value = 0 → n < 0 → PowerRefused a n .divisionByZero

variable {a : Decimal} {n : Int} {precision : Nat}

theorem pow_eq (a : Decimal) (n : Int) (precision : Nat) :
    a.pow n precision =
      if 100000 < n.natAbs then .error (.exponentRange n)
      else if 4294967295 < a.scale * n.natAbs then .error (.powerScale a n)
      else if 1000000 < writtenDigits a.mantissa * n.natAbs then .error (.powerDigits n)
      else if 0 ≤ n then .ok (a.exactPower n.natAbs)
      else ArithmeticFault.ofQuotient (one.div? (a.exactPower n.natAbs) precision) := by
  rw [← digitCount_eq_writtenDigits]
  rfl

theorem pow_of_fits (h : PowerFits a n) :
    a.pow n precision =
      if 0 ≤ n then .ok (a.exactPower n.natAbs)
      else ArithmeticFault.ofQuotient (one.div? (a.exactPower n.natAbs) precision) := by
  rw [pow_eq, if_neg (Nat.not_lt.2 h.exponent), if_neg (Nat.not_lt.2 h.scale), if_neg (Nat.not_lt.2 h.digits)]

/-- The quotient of one by a power is missing only if the power is zero, and then so is the base. -/
theorem one_div?_exactPower_eq_none_iff (hn : n < 0) :
    one.div? (a.exactPower n.natAbs) precision = none ↔ a.value = 0 := by
  have hk : n.natAbs ≠ 0 := by omega
  rw [div?_eq_none_iff, value_exactPower, pow_eq_zero_iff hk]

theorem pow_of_refused {fault : ArithmeticFault} (h : PowerRefused a n fault) : a.pow n precision = .error fault := by
  cases h with
  | exponent hexponent => rw [pow_eq, if_pos hexponent]
  | scale hexponent hscale => rw [pow_eq, if_neg (Nat.not_lt.2 hexponent), if_pos hscale]
  | digits hexponent hscale hdigits =>
    rw [pow_eq, if_neg (Nat.not_lt.2 hexponent), if_neg (Nat.not_lt.2 hscale), if_pos hdigits]
  | zero hfits hzero hn =>
    rw [pow_of_fits hfits, if_neg (not_le.2 hn), (one_div?_exactPower_eq_none_iff hn).2 hzero]
    rfl

/-- **There is a power, or a reason why not.** -/
theorem exists_pow_or_refused (a : Decimal) (n : Int) (precision : Nat) :
    (PowerFits a n ∧ ¬ (a.value = 0 ∧ n < 0) ∧ ∃ d, a.pow n precision = .ok d) ∨ ∃ fault, PowerRefused a n fault := by
  by_cases hexponent : n.natAbs ≤ 100000
  · by_cases hscale : a.scale * n.natAbs ≤ 4294967295
    · by_cases hdigits : writtenDigits a.mantissa * n.natAbs ≤ 1000000
      · have hfits : PowerFits a n := ⟨hexponent, hscale, hdigits⟩
        by_cases hzero : a.value = 0 ∧ n < 0
        · exact .inr ⟨_, .zero hfits hzero.1 hzero.2⟩
        · refine .inl ⟨hfits, hzero, ?_⟩
          rw [pow_of_fits hfits]
          by_cases hn : 0 ≤ n
          · exact ⟨_, if_pos hn⟩
          · cases hq : one.div? (a.exactPower n.natAbs) precision with
            | some d => exact ⟨d, if_neg hn⟩
            | none => exact absurd ⟨(one_div?_exactPower_eq_none_iff (not_le.1 hn)).1 hq, not_le.1 hn⟩ hzero
      · exact .inr ⟨_, .digits hexponent hscale (not_le.1 hdigits)⟩
    · exact .inr ⟨_, .scale hexponent (not_le.1 hscale)⟩
  · exact .inr ⟨_, .exponent (not_le.1 hexponent)⟩

theorem pow_eq_error_iff {fault : ArithmeticFault} : a.pow n precision = .error fault ↔ PowerRefused a n fault := by
  refine ⟨fun h => ?_, pow_of_refused⟩
  rcases exists_pow_or_refused a n precision with ⟨-, -, d, hd⟩ | ⟨fault', hrefused⟩
  · rw [hd] at h
    cases h
  · rw [pow_of_refused hrefused] at h
    cases h
    exact hrefused

theorem exists_pow_iff : (∃ d, a.pow n precision = .ok d) ↔ PowerFits a n ∧ ¬ (a.value = 0 ∧ n < 0) := by
  constructor
  · rintro ⟨d, hd⟩
    rcases exists_pow_or_refused a n precision with ⟨hfits, hzero, -⟩ | ⟨fault, hrefused⟩
    · exact ⟨hfits, hzero⟩
    · rw [pow_of_refused hrefused] at hd
      cases hd
  · intro h
    rcases exists_pow_or_refused a n precision with ⟨-, -, hd⟩ | ⟨fault, hrefused⟩
    · exact hd
    · -- what refuses the power breaks a limit, or divides by zero
      obtain ⟨⟨hexponent, hscale, hdigits⟩, hzero⟩ := h
      cases hrefused with
      | zero _ hvalue hn => exact absurd ⟨hvalue, hn⟩ hzero
      | _ => omega

theorem PowerRefused.kind {fault : ArithmeticFault} (h : PowerRefused a n fault) :
    (Fault.arithmetic fault).kind = .divisionByZero ∧ PowerFits a n ∨
      (Fault.arithmetic fault).kind = .arithmetic ∧ ¬ PowerFits a n := by
  cases h with
  | exponent hexponent => exact .inr ⟨rfl, fun hfits => absurd hfits.exponent (not_le.2 hexponent)⟩
  | scale _ hscale => exact .inr ⟨rfl, fun hfits => absurd hfits.scale (not_le.2 hscale)⟩
  | digits _ _ hdigits => exact .inr ⟨rfl, fun hfits => absurd hfits.digits (not_le.2 hdigits)⟩
  | zero hfits _ _ => exact .inl ⟨rfl, hfits⟩

/-! ## Powers that there are -/

theorem pow_natCast {k : Nat} {d : Decimal} (h : a.pow k precision = .ok d) : PowerFits a k ∧ d = a.exactPower k := by
  have hfits : PowerFits a k := (exists_pow_iff.1 ⟨d, h⟩).1
  rw [pow_of_fits hfits, if_pos (Int.natCast_nonneg k)] at h
  exact ⟨hfits, (Except.ok.inj h).symm⟩

theorem PowerFits.neg (h : PowerFits a n) : PowerFits a (-n) := by
  obtain ⟨hexponent, hscale, hdigits⟩ := h
  constructor <;> rw [Int.natAbs_neg] <;> assumption

theorem pow_neg_iff (hn : n < 0) {d : Decimal} :
    a.pow n precision = .ok d ↔ ∃ p, a.pow (-n) precision = .ok p ∧ one.div? p precision = some d := by
  have hneg : ¬ 0 ≤ n := not_le.2 hn
  have hpos : 0 ≤ -n := by omega
  constructor
  · intro h
    have hfits := (exists_pow_iff.1 ⟨d, h⟩).1
    rw [pow_of_fits hfits, if_neg hneg] at h
    refine ⟨a.exactPower n.natAbs, ?_, ArithmeticFault.eq_some_of_ofQuotient h⟩
    rw [pow_of_fits hfits.neg, if_pos hpos, Int.natAbs_neg]
  · rintro ⟨p, hp, hd⟩
    have hfits := (exists_pow_iff.1 ⟨p, hp⟩).1
    rw [pow_of_fits hfits, if_pos hpos, Int.natAbs_neg] at hp
    cases hp
    rw [pow_of_fits (neg_neg n ▸ hfits.neg), if_neg hneg, hd]
    rfl

/-- **Exponents add up.**  The product has room for its scale, because the power of the sum had. -/
theorem exactPower_mul {j k : Nat} (h : PowerFits a (j + k : Nat)) :
    (a.exactPower j).mul (a.exactPower k) = .ok (a.exactPower (j + k)) := by
  have hscale : (a.exactPower j).scale + (a.exactPower k).scale ≤ maxScale :=
    calc (a.exactPower j).scale + (a.exactPower k).scale ≤ a.scale * j + a.scale * k :=
          Nat.add_le_add (scale_exactPower_le a j) (scale_exactPower_le a k)
      _ = a.scale * (j + k) := (Nat.mul_add _ _ _).symm
      _ ≤ maxScale := h.scale
  obtain ⟨d, hd, hvalue⟩ := exists_mul hscale
  rw [hd]
  refine congrArg Except.ok ((mul_normal hd).eq_of_value_eq (normalize_normal _ _) ?_)
  rw [hvalue, value_exactPower, value_exactPower, ← pow_add, ← value_exactPower]

/-! ## Calculated exponents -/

theorem Normal.toInt64?_eq_some_iff {r : Decimal} (hr : r.Normal) {n : Int64} :
    r.toInt64? = some n ↔ r.value = n.toInt := by
  have hlow := n.le_toInt
  have hhigh := n.toInt_lt
  unfold toInt64?
  by_cases hinteger : r.isInteger = true
  · have hvalue : r.value = r.mantissa := by
      rw [isInteger, beq_iff_eq] at hinteger
      simp [value, hinteger]
    rw [hvalue, Int.cast_inj]
    by_cases hrange : -9223372036854775808 ≤ r.mantissa ∧ r.mantissa < 9223372036854775808
    · have hcast : (Int64.ofInt r.mantissa).toInt = r.mantissa := Int64.toInt_ofInt_of_le hrange.1 hrange.2
      simp only [hinteger, hrange, decide_true, Bool.and_self, if_true, Option.some.injEq]
      rw [← Int64.toInt_inj, hcast]
    · have hfar : r.mantissa ≠ n.toInt := fun heq => hrange ⟨by omega, by omega⟩
      simp [hinteger, hrange, hfar]
  · have hfraction : r.value ≠ n.toInt := fun heq => hinteger (hr.isInteger_iff.2 ⟨_, heq⟩)
    simp [hinteger, hfraction]

/-- **Integral powers are exact within their limits.**  There is a power exactly if it fits and does not divide by zero;
otherwise the first limit that is broken is reported, and division by zero only if none is.  With a natural exponent the
value is the power of the values, in no more digits than the estimate allows; with a negative one, it is one divided by
the opposite power; and exponents add up.  A calculation takes its exponent from a number that is whole and fits in 64
bits, and reports any other one. -/
theorem integral_powers (a : Decimal) (precision : Nat) :
    (∀ n, (∃ d, a.pow n precision = .ok d) ↔ PowerFits a n ∧ ¬ (a.value = 0 ∧ n < 0)) ∧
    (∀ n fault, a.pow n precision = .error fault ↔ PowerRefused a n fault) ∧
    (∀ n fault, a.pow n precision = .error fault →
      (Fault.arithmetic fault).kind = .divisionByZero ∧ PowerFits a n ∨
        (Fault.arithmetic fault).kind = .arithmetic ∧ ¬ PowerFits a n) ∧
    (∀ (k : Nat) d, a.pow k precision = .ok d →
      d.Normal ∧ d.value = a.value ^ k ∧ writtenDigits d.mantissa ≤ max 1 (writtenDigits a.mantissa * k) ∧
        writtenDigits d.mantissa ≤ 1000000) ∧
    (∀ n < 0, ∀ d, a.pow n precision = .ok d ↔
      ∃ p, a.pow (-n) precision = .ok p ∧ one.div? p precision = some d) ∧
    (∀ (j k : Nat) x y z, a.pow j precision = .ok x → a.pow k precision = .ok y →
      a.pow (j + k : Nat) precision = .ok z → x.mul y = .ok z) ∧
    ∀ r : Decimal, r.Normal →
      (∀ n : Int64, r.value = n.toInt → NumberOp.exp.compute a r precision = a.pow n.toInt precision) ∧
      ((¬ ∃ n : Int64, r.value = n.toInt) →
        NumberOp.exp.compute a r precision = .error (.fractionalExponent r) ∧
          (Fault.arithmetic (.fractionalExponent r)).kind = .arithmetic) := by
  refine ⟨fun n => exists_pow_iff, fun n fault => pow_eq_error_iff, fun n fault h => (pow_eq_error_iff.1 h).kind,
    fun k d h => ?_, fun n hn d => pow_neg_iff hn, fun j k x y z hx hy hz => ?_, fun r hr => ⟨fun n hn => ?_, fun hn => ?_⟩⟩
  · obtain ⟨hfits, rfl⟩ := pow_natCast h
    have hdigits := writtenDigits_exactPower_le a k
    have hlimit : writtenDigits a.mantissa * k ≤ 1000000 := hfits.digits
    exact ⟨normalize_normal _ _, value_exactPower a k, hdigits, by omega⟩
  · obtain ⟨-, rfl⟩ := pow_natCast hx
    obtain ⟨-, rfl⟩ := pow_natCast hy
    obtain ⟨hfits, rfl⟩ := pow_natCast hz
    exact exactPower_mul hfits
  · have hread : r.toInt64? = some n := hr.toInt64?_eq_some_iff.2 hn
    simp [NumberOp.compute, hread]
  · have hread : r.toInt64? = none := by
      cases hread : r.toInt64? with
      | none => rfl
      | some n => exact absurd ⟨n, hr.toInt64?_eq_some_iff.1 hread⟩ hn
    exact ⟨by simp [NumberOp.compute, hread], rfl⟩

/-- Minus three halves: their third power is exact, one that is far out of range is refused before anything is done, and
the reciprocal of zero is a division by zero. -/
theorem integral_powers_threeHalves :
    pow ⟨-15, 1⟩ 3 34 = .ok ⟨-3375, 3⟩ ∧ value ⟨-3375, 3⟩ = value ⟨-15, 1⟩ ^ 3 ∧
      pow ⟨-15, 1⟩ (-9223372036854775808) 34 = .error (.exponentRange (-9223372036854775808)) ∧
      zero.pow (-1) 34 = .error .divisionByZero := by
  have hcube : pow ⟨-15, 1⟩ (3 : Nat) 34 = .ok ⟨-3375, 3⟩ := by rfl
  refine ⟨hcube, ((integral_powers ⟨-15, 1⟩ 34).2.2.2.1 3 _ hcube).2.1, ?_, ?_⟩
  · exact ((integral_powers ⟨-15, 1⟩ 34).2.1 _ _).2 (.exponent (by decide))
  · exact ((integral_powers zero 34).2.1 _ _).2 (.zero ⟨by decide, by decide, by decide⟩ (by simp [zero, ofInt, value]) (by decide))

end Decimal

end LooseExpr
