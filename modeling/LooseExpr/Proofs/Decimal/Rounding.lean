import LooseExpr.Proofs.Decimal.Expansion
import Mathlib.Algebra.Order.Field.Power
import Mathlib.Algebra.Order.Round
import Mathlib.Data.Sign.Basic
import Mathlib.Tactic.Linarith
import Mathlib.Tactic.Ring
/-!
# Rounding a quotient

A quotient that does not terminate is rounded in two steps.  Numerator and denominator are first brought so far apart
that the whole quotient has one or two digits more than were asked for; then those are rounded off.  What the first
division leaves over is never nothing, so the rounding meets no tie, and the result is the nearest number with that many
digits (`roundedDigits_near`).

All of this is true as long as 32 bits hold how far the numbers were moved.  If they do not, digits are lost from the
front; `roundedDigits_eq_zero_iff` says when none remains.
-/
namespace LooseExpr

namespace Decimal

/-! ## Moving the point -/

/-- How many places the numerator is moved up, or, if negative, the denominator. -/
def roundingShift (num den precision : Nat) : Int := precision - ((digitCount num : Int) - digitCount den) + 1

def shiftedNum (num : Nat) (shift : Int) : Nat := if 0 ≤ shift then num * tenPow (word32 shift) else num

def shiftedDen (den : Nat) (shift : Int) : Nat := if 0 ≤ shift then den else den * tenPow (word32 shift.natAbs)

theorem shiftedDen_pos {den : Nat} (hden : 0 < den) (shift : Int) : 0 < shiftedDen den shift := by
  unfold shiftedDen
  split
  · exact hden
  · exact Nat.mul_pos hden (Nat.pow_pos (by decide))

theorem zpow_natAbs_of_nonneg {shift : Int} (h : 0 ≤ shift) : (10 : ℚ) ^ shift.natAbs = 10 ^ shift := by
  rw [← zpow_natCast, Int.natAbs_of_nonneg h]

theorem zpow_natAbs_of_neg {shift : Int} (h : shift < 0) : (10 : ℚ) ^ shift.natAbs = 10 ^ (-shift) := by
  rw [← zpow_natCast, Int.ofNat_natAbs_of_nonpos h.le]

/-- **Numerator and denominator are moved apart by `shift` places.** -/
theorem shiftedNum_eq (num : Nat) {den : Nat} {shift : Int} (hden : 0 < den) (hshift : shift.natAbs ≤ maxScale) :
    (shiftedNum num shift : ℚ) = num / den * 10 ^ shift * shiftedDen den shift := by
  have hpos : (den : ℚ) ≠ 0 := by exact_mod_cast hden.ne'
  unfold shiftedNum shiftedDen
  by_cases h : 0 ≤ shift
  · rw [if_pos h, if_pos h, word32_of_nonneg h hshift, Nat.cast_mul, cast_tenPow, zpow_natAbs_of_nonneg h]
    field_simp
  · rw [if_neg h, if_neg h, word32_natCast hshift, Nat.cast_mul, cast_tenPow, zpow_natAbs_of_neg (not_le.1 h), zpow_neg]
    field_simp

/-- Rounds a whole quotient off to `precision` digits; `sticky` tells that it was not the whole of it. -/
def roundOff (q precision : Nat) (sticky : Bool) (shift : Int) : Nat × Int :=
  if precision < digitCount q then
    let excess := word32 (digitCount q - precision)
    (roundHalfEven (q / tenPow excess) (q % tenPow excess) (tenPow excess) sticky, shift - excess)
  else (q, shift)

theorem roundedDigits_eq (num den precision : Nat) :
    roundedDigits num den precision =
      roundOff (shiftedNum num (roundingShift num den precision) / shiftedDen den (roundingShift num den precision))
        precision
        (shiftedNum num (roundingShift num den precision) % shiftedDen den (roundingShift num den precision) ≠ 0)
        (roundingShift num den precision) := rfl

/-! ## How large the whole quotient is -/

/-- The quotient of two numbers, between powers of ten. -/
theorem quotient_bounds {num den : Nat} (hnum : 0 < num) (hden : 0 < den) :
    (10 : ℚ) ^ ((digitCount num : Int) - digitCount den - 1) < num / den ∧
      (num : ℚ) / den < 10 ^ ((digitCount num : Int) - digitCount den + 1) := by
  have hpos : (0 : ℚ) < den := by exact_mod_cast hden
  have hdigits : ∀ n : Nat, 0 < n → (10 : ℚ) ^ ((digitCount n : Int) - 1) ≤ n := fun n hn => by
    have hcount : 0 < digitCount n := by rw [digitCount_eq]; omega
    have hle := pow_le_of_lt_digitCount hn.ne' (Nat.sub_lt hcount Nat.one_pos)
    rw [show (digitCount n : Int) - 1 = ((digitCount n - 1 : Nat) : Int) by omega, zpow_natCast]
    exact_mod_cast hle
  have hbelow : ∀ n : Nat, (n : ℚ) < 10 ^ (digitCount n : Int) := fun n => by
    rw [zpow_natCast]
    exact_mod_cast lt_pow_digitCount n
  constructor
  · rw [lt_div_iff₀ hpos]
    calc (10 : ℚ) ^ ((digitCount num : Int) - digitCount den - 1) * den
        < 10 ^ ((digitCount num : Int) - digitCount den - 1) * 10 ^ (digitCount den : Int) :=
          mul_lt_mul_of_pos_left (hbelow den) (by positivity)
      _ = 10 ^ ((digitCount num : Int) - 1) := by rw [← zpow_add₀ (by norm_num)]; congr 1; ring
      _ ≤ num := hdigits num hnum
  · rw [div_lt_iff₀ hpos]
    calc (num : ℚ) < 10 ^ (digitCount num : Int) := hbelow num
      _ = 10 ^ ((digitCount num : Int) - digitCount den + 1) * 10 ^ ((digitCount den : Int) - 1) := by
          rw [← zpow_add₀ (by norm_num)]; congr 1; ring
      _ ≤ 10 ^ ((digitCount num : Int) - digitCount den + 1) * den :=
          mul_le_mul_of_nonneg_left (hdigits den hden) (by positivity)

/-- **Moved by the shift, the quotient has one or two digits too many.** -/
theorem shifted_bounds {num den : Nat} (hnum : 0 < num) (hden : 0 < den) (precision : Nat) :
    (10 : ℚ) ^ precision < num / den * 10 ^ roundingShift num den precision ∧
      (num : ℚ) / den * 10 ^ roundingShift num den precision < 10 ^ (precision + 2) := by
  obtain ⟨hlow, hhigh⟩ := quotient_bounds hnum hden
  have hpos : (0 : ℚ) < 10 ^ roundingShift num den precision := by positivity
  constructor
  · calc (10 : ℚ) ^ precision
        = 10 ^ ((digitCount num : Int) - digitCount den - 1) * 10 ^ roundingShift num den precision := by
          rw [← zpow_add₀ (by norm_num), ← zpow_natCast]; congr 1; unfold roundingShift; ring
      _ < _ := mul_lt_mul_of_pos_right hlow hpos
  · calc (num : ℚ) / den * 10 ^ roundingShift num den precision
        < 10 ^ ((digitCount num : Int) - digitCount den + 1) * 10 ^ roundingShift num den precision :=
          mul_lt_mul_of_pos_right hhigh hpos
      _ = 10 ^ (precision + 2) := by
          rw [← zpow_add₀ (by norm_num), ← zpow_natCast]; congr 1; unfold roundingShift; push_cast; ring

/-! ## Rounding off -/

/-- **Without a tie, the nearest**: `q` and a fraction `f` are rounded to a multiple of an even unit. -/
theorem roundHalfEven_near {q unit : Nat} {f : ℚ} (hunit : 0 < unit) (heven : 2 ∣ unit) (hf : 0 < f) (hf' : f < 1) :
    |(roundHalfEven (q / unit) (q % unit) unit true : ℚ) * unit - (q + f)| < unit / 2 := by
  obtain ⟨half, rfl⟩ := heven
  have hhalf : 2 * half / 2 = half := by omega
  have hdropped := Nat.mod_lt q hunit
  have hq : (q : ℚ) = (q / (2 * half) : Nat) * (2 * half : Nat) + (q % (2 * half) : Nat) := by
    exact_mod_cast (Nat.div_add_mod' q (2 * half)).symm
  rw [hq]
  generalize q / (2 * half) = kept at *
  generalize q % (2 * half) = dropped at *
  unfold roundHalfEven
  rw [hhalf]
  push_cast
  rcases lt_trichotomy dropped half with hlt | heq | hgt
  · have hle : (dropped : ℚ) + 1 ≤ half := by exact_mod_cast hlt
    rw [compare_lt_iff_lt.2 hlt, abs_lt]
    constructor <;> linarith
  · have hle : (1 : ℚ) ≤ half := by exact_mod_cast (by omega : 1 ≤ half)
    rw [compare_eq_iff_eq.2 heq, heq]
    simp only [Bool.true_or, if_true]
    rw [Nat.cast_succ, add_mul, abs_lt]
    constructor <;> linarith
  · have hle : (half : ℚ) + 1 ≤ dropped := by exact_mod_cast hgt
    have hle' : (dropped : ℚ) + 1 ≤ 2 * half := by exact_mod_cast hdropped
    rw [compare_gt_iff_gt.2 hgt, Nat.cast_succ, add_mul, abs_lt]
    constructor <;> linarith

theorem exists_hasExpansion (n j : Int) : ∃ k, HasExpansion (n * 10 ^ j) k := by
  refine ⟨(-j).toNat, n * 10 ^ j.toNat, ?_⟩
  have hsplit : (10 : ℚ) ^ j * 10 ^ (-j).toNat = 10 ^ j.toNat := by
    rw [← zpow_natCast, ← zpow_natCast, ← zpow_add₀ (by norm_num)]
    congr 1
    omega
  rw [eq_div_iff (by positivity), mul_assoc, hsplit]
  push_cast
  rfl

/-- **One or two digits are rounded off**, and with them the fraction `f` that was left over. -/
theorem roundOff_near {q precision : Nat} {f : ℚ} (shift : Int) (hlow : 10 ^ precision ≤ q)
    (hhigh : q < 10 ^ (precision + 2)) (hf : 0 < f) (hf' : f < 1) :
    ∃ excess : Nat, (roundOff q precision true shift).2 = shift - excess ∧
      (10 : ℚ) ^ ((precision : Int) + excess - 1) ≤ q + f ∧ q + f < (10 : ℚ) ^ ((precision : Int) + excess) ∧
      |((roundOff q precision true shift).1 : ℚ) * 10 ^ excess - (q + f)| < 10 ^ excess / 2 := by
  have hmore := lt_digitCount_of_pow_le hlow
  have hmost := digitCount_le_of_lt_pow (by omega) hhigh
  have hbelow := lt_pow_digitCount q
  have habove := pow_le_of_lt_digitCount (n := q) (k := digitCount q - 1)
    (Nat.lt_of_lt_of_le (Nat.pow_pos (by decide)) hlow).ne' (by omega)
  obtain ⟨excess, hexcess⟩ : ∃ excess, digitCount q = precision + (excess + 1) := ⟨digitCount q - precision - 1, by omega⟩
  have hword : word32 (digitCount q - precision) = excess + 1 := by
    rw [hexcess, Nat.cast_add, add_sub_cancel_left]
    exact word32_natCast (by unfold maxScale; omega)
  have hrounded : roundOff q precision true shift =
      (roundHalfEven (q / tenPow (excess + 1)) (q % tenPow (excess + 1)) (tenPow (excess + 1)) true,
        shift - (excess + 1 : Nat)) := by
    unfold roundOff
    rw [if_pos hmore, hword]
  have hunit : (tenPow (excess + 1) : ℚ) = 10 ^ (excess + 1) := cast_tenPow _
  have heven : 2 ∣ tenPow (excess + 1) := dvd_pow (show 2 ∣ 10 by decide) (Nat.succ_ne_zero excess)
  refine ⟨excess + 1, by rw [hrounded], ?_, ?_, ?_⟩
  · have hle : ((10 ^ (precision + excess) : Nat) : ℚ) ≤ q := by
      rw [hexcess] at habove
      exact_mod_cast habove
    rw [show (precision : Int) + (excess + 1 : Nat) - 1 = (precision + excess : Nat) by push_cast; ring, zpow_natCast]
    push_cast at hle
    linarith
  · have hle : (q : ℚ) + 1 ≤ (10 ^ (precision + (excess + 1)) : Nat) := by
      rw [hexcess] at hbelow
      exact_mod_cast hbelow
    rw [← Nat.cast_add, zpow_natCast]
    push_cast at hle
    linarith
  · rw [hrounded, ← hunit]
    exact roundHalfEven_near (Nat.pow_pos (by decide)) heven hf hf'

/-- **The digits of a quotient that does not terminate**: it lies between `10 ^ e` and `10 ^ (e + 1)`, and the digits
count units of `10 ^ (e - precision + 1)`, to the nearest of them. -/
theorem roundedDigits_near {num den precision : Nat} (hnum : 0 < num) (hden : 0 < den)
    (hshift : (roundingShift num den precision).natAbs ≤ maxScale) (hendless : ∀ k, ¬ HasExpansion ((num : ℚ) / den) k) :
    ∃ e : Int, (10 : ℚ) ^ e ≤ num / den ∧ (num : ℚ) / den < 10 ^ (e + 1) ∧
      (roundedDigits num den precision).2 = -(e - precision + 1) ∧
      |((roundedDigits num den precision).1 : ℚ) * 10 ^ (e - precision + 1) - num / den| <
        10 ^ (e - precision + 1) / 2 := by
  obtain ⟨hlow, hhigh⟩ := shifted_bounds hnum hden precision
  have heq := shiftedNum_eq num hden hshift
  have hbottom := shiftedDen_pos hden (roundingShift num den precision)
  rw [roundedDigits_eq]
  generalize roundingShift num den precision = shift at *
  generalize shiftedNum num shift = top at *
  generalize shiftedDen den shift = bottom at *
  have hbottom' : (0 : ℚ) < bottom := by exact_mod_cast hbottom
  -- the moved quotient: its whole part, and a fraction that is not zero
  have hsplit : (num : ℚ) / den * 10 ^ shift = (top / bottom : Nat) + (top % bottom : Nat) / bottom := by
    rw [eq_comm, ← mul_right_cancel_iff_of_pos hbottom', ← heq, add_mul, div_mul_cancel₀ _ hbottom'.ne']
    exact_mod_cast Nat.div_add_mod' top bottom
  have hback : (num : ℚ) / den = ((top / bottom : Nat) + (top % bottom : Nat) / bottom) * 10 ^ (-shift) := by
    rw [← hsplit, mul_assoc, ← zpow_add₀ (by norm_num), add_neg_cancel, zpow_zero, mul_one]
  have hsticky : top % bottom ≠ 0 := by
    intro hzero
    obtain ⟨k, hk⟩ := exists_hasExpansion (top / bottom : Nat) (-shift)
    refine hendless k ?_
    rw [hback, hzero, Nat.cast_zero, zero_div, add_zero]
    exact_mod_cast hk
  have hf : (0 : ℚ) < (top % bottom : Nat) / bottom :=
    div_pos (by exact_mod_cast Nat.pos_of_ne_zero hsticky) hbottom'
  have hf' : ((top % bottom : Nat) : ℚ) / bottom < 1 :=
    (div_lt_one hbottom').2 (by exact_mod_cast Nat.mod_lt top hbottom)
  rw [hsplit] at hlow hhigh
  rw [decide_eq_true hsticky, hback]
  generalize ((top % bottom : Nat) : ℚ) / bottom = f at *
  generalize top / bottom = q at *
  have hq : 10 ^ precision ≤ q := by
    have hlt : ((10 ^ precision : Nat) : ℚ) < (q + 1 : Nat) := by push_cast; linarith
    exact Nat.le_of_lt_succ (by exact_mod_cast hlt)
  have hq' : q < 10 ^ (precision + 2) := by
    have hlt : (q : ℚ) < (10 ^ (precision + 2) : Nat) := by push_cast; linarith
    exact_mod_cast hlt
  obtain ⟨excess, hscale, hbelow, habove, hnear⟩ := roundOff_near shift hq hq' hf hf'
  -- moved back, all of it
  have hpos : (0 : ℚ) < 10 ^ (-shift) := by positivity
  have hmove : ∀ j : Int, (10 : ℚ) ^ (j - shift) = 10 ^ j * 10 ^ (-shift) := fun j => by
    rw [← zpow_add₀ (by norm_num), sub_eq_add_neg]
  refine ⟨(precision : Int) + excess - 1 - shift, ?_, ?_, ?_, ?_⟩
  · rw [hmove]
    exact mul_le_mul_of_nonneg_right hbelow hpos.le
  · rw [show (precision : Int) + excess - 1 - shift + 1 = precision + excess - shift by ring, hmove]
    exact mul_lt_mul_of_pos_right habove hpos
  · rw [hscale]
    ring
  · rw [show (precision : Int) + excess - 1 - shift - precision + 1 = excess - shift by ring, hmove, zpow_natCast,
      ← mul_assoc, ← sub_mul, abs_mul, abs_of_pos hpos, mul_div_right_comm]
    exact mul_lt_mul_of_pos_right hnear hpos

/-! ## Lost digits -/

theorem le_roundHalfEven (kept dropped divisor : Nat) (sticky : Bool) : kept ≤ roundHalfEven kept dropped divisor sticky := by
  unfold roundHalfEven
  split
  · omega
  · omega
  · split <;> omega

/-- Rounding off leaves something of everything. -/
theorem roundOff_eq_zero_iff {q precision : Nat} {sticky : Bool} {shift : Int} (hp : 0 < precision) :
    (roundOff q precision sticky shift).1 = 0 ↔ q = 0 := by
  unfold roundOff
  by_cases h : precision < digitCount q
  · have hq : q ≠ 0 := by
      rintro rfl
      have : digitCount 0 = 1 := rfl
      omega
    have hexcess : word32 (digitCount q - precision) < digitCount q := by
      rw [← Nat.cast_sub h.le]
      have := word32_natCast_le (digitCount q - precision)
      omega
    have hkept : 0 < q / tenPow (word32 (digitCount q - precision)) :=
      Nat.div_pos (pow_le_of_lt_digitCount hq hexcess) (Nat.pow_pos (by decide))
    have hle := le_roundHalfEven (q / tenPow (word32 (digitCount q - precision)))
      (q % tenPow (word32 (digitCount q - precision))) (tenPow (word32 (digitCount q - precision))) sticky
    rw [if_pos h]
    simp only
    omega
  · rw [if_neg h]

/-- **No digit is left exactly if the numerator was not moved far enough**, for want of bits. -/
theorem roundedDigits_eq_zero_iff {num den precision : Nat} (hnum : 0 < num) (hden : 0 < den) (hp : 0 < precision) :
    (roundedDigits num den precision).1 = 0 ↔
      (maxScale : Int) < roundingShift num den precision ∧
        num * tenPow (word32 (roundingShift num den precision)) < den := by
  have hfar : (1 : ℚ) < num / den * 10 ^ roundingShift num den precision :=
    (one_lt_pow₀ (by norm_num) hp.ne').trans (shifted_bounds hnum hden precision).1
  have hbottom := shiftedDen_pos hden (roundingShift num den precision)
  rw [roundedDigits_eq, roundOff_eq_zero_iff hp, Nat.div_eq_zero_iff, or_iff_right hbottom.ne']
  generalize roundingShift num den precision = shift at *
  by_cases hlost : (maxScale : Int) < shift
  · have hshift : 0 ≤ shift := by omega
    unfold shiftedNum shiftedDen
    rw [if_pos hshift, if_pos hshift, and_iff_right hlost]
  · -- with all the bits of the shift, or with a denominator moved less than it should be, there is a digit
    rw [iff_false_right (fun h => hlost h.1), not_lt]
    have hden' : (0 : ℚ) < den := by exact_mod_cast hden
    by_cases hshift : 0 ≤ shift
    · have heq := shiftedNum_eq num hden (by omega : shift.natAbs ≤ maxScale)
      have hle : (shiftedDen den shift : ℚ) ≤ shiftedNum num shift := by
        rw [heq]
        exact le_mul_of_one_le_left (Nat.cast_nonneg _) hfar.le
      exact_mod_cast hle
    · unfold shiftedNum shiftedDen
      rw [if_neg hshift, if_neg hshift]
      have hle : den * tenPow (word32 shift.natAbs) ≤ den * 10 ^ shift.natAbs :=
        Nat.mul_le_mul_left den (Nat.pow_le_pow_right (by decide) (word32_natCast_le _))
      have hlt : ((den * 10 ^ shift.natAbs : Nat) : ℚ) < num := by
        push_cast
        rw [zpow_natAbs_of_neg (not_le.1 hshift), zpow_neg]
        rw [div_mul_eq_mul_div, lt_div_iff₀ hden', one_mul] at hfar
        rw [← div_eq_mul_inv, div_lt_iff₀ (by positivity)]
        exact hfar
      have hlt' : den * 10 ^ shift.natAbs < num := by exact_mod_cast hlt
      omega

/-! ## Nearest multiples -/

/-- `r` is a multiple of `unit`, and less than half of it away from `q`. -/
structure NearestMultiple (unit q r : ℚ) : Prop where
  multiple : ∃ n : Int, r = n * unit
  near : |r - q| < unit / 2

/-- The number has at most `p` significant digits. -/
def HasDigits (r : ℚ) (p : Nat) : Prop := ∃ m j : Int, r = m * 10 ^ j ∧ |m| < 10 ^ p

namespace NearestMultiple

variable {q r : ℚ}

/-- Every other multiple is farther away. -/
theorem lt_of_ne {unit : ℚ} (h : NearestMultiple unit q r) {n : Int} (hn : n * unit ≠ r) : |r - q| < |n * unit - q| := by
  obtain ⟨m, rfl⟩ := h.multiple
  have hnear := h.near
  have hunit : 0 < unit := by linarith [abs_nonneg (m * unit - q)]
  have hne : n - m ≠ 0 := fun hzero => hn (by rw [sub_eq_zero.1 hzero])
  have hone : (1 : ℚ) ≤ |((n - m : Int) : ℚ)| := by exact_mod_cast Int.one_le_abs hne
  have hapart : unit ≤ |n * unit - m * unit| := by
    rw [← sub_mul, abs_mul, abs_of_pos hunit, ← Int.cast_sub]
    exact le_mul_of_one_le_left hunit.le hone
  have htriangle := abs_sub_le (n * unit) q (m * unit)
  rw [abs_sub_comm q] at htriangle
  linarith

variable {e : Int} {p : Nat}

theorem hasDigits (h : NearestMultiple (10 ^ (e - p + 1)) q r) (hp : 0 < p) (hq : |q| < 10 ^ (e + 1)) : HasDigits r p := by
  obtain ⟨n, rfl⟩ := h.multiple
  have hnear := h.near
  have hunit : (0 : ℚ) < 10 ^ (e - p + 1) := by positivity
  have hmost : (10 : ℚ) ^ (e + 1) = 10 ^ p * 10 ^ (e - p + 1) := by
    rw [← zpow_natCast, ← zpow_add₀ (by norm_num)]
    congr 1
    ring
  have hbound : |(n : ℚ)| * 10 ^ (e - p + 1) < (10 ^ p + 1) * 10 ^ (e - p + 1) := by
    have habs : |(n : ℚ) * 10 ^ (e - p + 1)| = |(n : ℚ)| * 10 ^ (e - p + 1) := by rw [abs_mul, abs_of_pos hunit]
    have htriangle := abs_sub_abs_le_abs_sub ((n : ℚ) * 10 ^ (e - p + 1)) q
    rw [add_mul, one_mul]
    linarith
  have hn : |n| < 10 ^ p + 1 := by exact_mod_cast lt_of_mul_lt_mul_right hbound hunit.le
  rcases (Int.lt_add_one_iff.1 hn).lt_or_eq with hlt | heq
  · exact ⟨n, _, rfl, hlt⟩
  -- a carry through all the digits leaves a single one
  · have hten : (n : ℚ) = n.sign * 10 ^ p := by
      conv_lhs => rw [← Int.sign_mul_abs n, heq]
      push_cast
      rfl
    refine ⟨n.sign, e + 1, by rw [hten, hmost, mul_assoc], ?_⟩
    have hone : (1 : Int) < 10 ^ p := one_lt_pow₀ (by decide) hp.ne'
    have hsign : |n.sign| ≤ 1 := by
      rcases n.sign_trichotomy with hs | hs | hs <;> rw [hs] <;> decide
    exact lt_of_le_of_lt hsign hone

theorem sign_eq (h : NearestMultiple (10 ^ (e - p + 1)) q r) (hp : 0 < p) (hq : 10 ^ e ≤ |q|) :
    SignType.sign r = SignType.sign q := by
  have hunit : (10 : ℚ) ^ (e - p + 1) ≤ 10 ^ e := zpow_le_zpow_right₀ (by norm_num) (by omega)
  have hpos : (0 : ℚ) < 10 ^ e := by positivity
  have hnear := h.near
  rw [abs_lt] at hnear
  rcases lt_trichotomy q 0 with hneg | hzero | hpos'
  · rw [abs_of_neg hneg] at hq
    rw [sign_neg hneg, sign_neg (by linarith)]
  · rw [hzero, abs_zero] at hq
    linarith
  · rw [abs_of_pos hpos'] at hq
    rw [sign_pos hpos', sign_pos (by linarith)]

end NearestMultiple

end Decimal

end LooseExpr
