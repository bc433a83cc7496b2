import LooseExpr.Proofs.Decimal.Value
import Mathlib.Data.Nat.Factorization.Basic
import Mathlib.Data.Nat.Log
import Mathlib.Data.Rat.Lemmas
/-!
# Digits and finite expansions

Two searches go by halves: how many digits a number has, and how often a prime divides it.  Both are what they are
called (`digitCount_eq`, `countFactor_eq`), since the number of halvings they begin with is always enough.

A fraction in lowest terms has a finite expansion exactly if its denominator divides a power of ten.  `terminatingScale?`
finds the least such power, as long as 32 bits hold the counters (`FactorsHeld`), or that there is none.
-/
namespace LooseExpr

namespace Decimal

/-- The number of halvings that the searches begin with. -/
theorem lt_two_pow_two_pow (n : Nat) : n < 2 ^ 2 ^ (Nat.log2 (Nat.log2 n + 1) + 1) :=
  calc n < 2 ^ (Nat.log2 n + 1) := Nat.lt_log2_self
    _ ≤ 2 ^ 2 ^ (Nat.log2 (Nat.log2 n + 1) + 1) := Nat.pow_le_pow_right (by decide) Nat.lt_log2_self.le

/-! ## Counting digits -/

theorem digitsBelow_eq : ∀ (k n : Nat), n < 10 ^ 2 ^ k → digitsBelow k n = Nat.log 10 n + 1
  | 0, n, h => by
    have hlog : Nat.log 10 n = 0 := Nat.log_of_lt (by simpa using h)
    rw [digitsBelow, hlog]
  | k + 1, n, h => by
    change (if n < 10 ^ 2 ^ k then digitsBelow k n else 2 ^ k + digitsBelow k (n / 10 ^ 2 ^ k)) = _
    by_cases hlow : n < 10 ^ 2 ^ k
    · rw [if_pos hlow, digitsBelow_eq k n hlow]
    · have hhigh : n / 10 ^ 2 ^ k < 10 ^ 2 ^ k := Nat.div_lt_of_lt_mul (by
        rw [← pow_add, ← Nat.mul_two, ← pow_succ]
        exact h)
      have hle : 2 ^ k ≤ Nat.log 10 n := Nat.le_log_of_pow_le (by decide) (Nat.le_of_not_lt hlow)
      rw [if_neg hlow, digitsBelow_eq k _ hhigh, Nat.log_div_base_pow]
      omega

theorem digitCount_eq (n : Nat) : digitCount n = Nat.log 10 n + 1 := by
  have hpow : 2 ^ 2 ^ (Nat.log2 (Nat.log2 n + 1) + 1) ≤ 10 ^ 2 ^ (Nat.log2 (Nat.log2 n + 1) + 1) :=
    Nat.pow_le_pow_left (by decide) _
  exact digitsBelow_eq _ n (Nat.lt_of_lt_of_le (lt_two_pow_two_pow n) hpow)

theorem lt_pow_digitCount (n : Nat) : n < 10 ^ digitCount n := by
  rw [digitCount_eq]
  exact Nat.lt_pow_succ_log_self (by decide) n

theorem pow_le_of_lt_digitCount {n k : Nat} (hn : n ≠ 0) (hk : k < digitCount n) : 10 ^ k ≤ n := by
  rw [digitCount_eq] at hk
  exact (Nat.pow_le_pow_right (by decide) (Nat.le_of_lt_succ hk)).trans (Nat.pow_log_le_self 10 hn)

theorem lt_digitCount_of_pow_le {n k : Nat} (h : 10 ^ k ≤ n) : k < digitCount n := by
  rw [digitCount_eq]
  exact Nat.lt_succ_of_le (Nat.le_log_of_pow_le (by decide) h)

theorem digitCount_le_of_lt_pow {n k : Nat} (hk : 0 < k) (h : n < 10 ^ k) : digitCount n ≤ k := by
  rw [digitCount_eq]
  exact Nat.log_lt_of_lt_pow' hk.ne' h

/-! ## Counting factors -/

theorem divideOut_of_dvd {p k m : Nat} (hp : 0 < p) :
    divideOut p (k + 1) (p ^ 2 ^ k * m) = (2 ^ k + (divideOut p k m).1, (divideOut p k m).2) := by
  have hmod : p ^ 2 ^ k * m % Nat.pow p (Nat.pow 2 k) = 0 := Nat.mul_mod_right _ m
  have hdiv : p ^ 2 ^ k * m / Nat.pow p (Nat.pow 2 k) = m := Nat.mul_div_cancel_left m (Nat.pow_pos hp)
  rw [divideOut]
  simp only [hmod, hdiv, if_true]
  rfl

theorem divideOut_of_not_dvd {p k n : Nat} (h : ¬ p ^ 2 ^ k ∣ n) : divideOut p (k + 1) n = divideOut p k n := by
  rw [divideOut]
  exact if_neg (fun hmod => h (Nat.dvd_of_mod_eq_zero hmod))

/-- **All the factors `p` are divided out**, if there are fewer than `2 ^ k` of them. -/
theorem divideOut_eq {p : Nat} (hp : 0 < p) : ∀ (k n : Nat), ¬ p ^ 2 ^ k ∣ n →
    n = p ^ (divideOut p k n).1 * (divideOut p k n).2 ∧ ¬ p ∣ (divideOut p k n).2
  | 0, n, h => by simpa [divideOut] using h
  | k + 1, n, h => by
    by_cases hdvd : p ^ 2 ^ k ∣ n
    · obtain ⟨m, rfl⟩ := hdvd
      have hm : ¬ p ^ 2 ^ k ∣ m := fun hm => h (by
        rw [pow_succ, Nat.mul_two, pow_add]
        exact Nat.mul_dvd_mul_left _ hm)
      obtain ⟨heq, hrest⟩ := divideOut_eq hp k m hm
      rw [divideOut_of_dvd hp]
      exact ⟨by rw [pow_add, mul_assoc, ← heq], hrest⟩
    · rw [divideOut_of_not_dvd hdvd]
      exact divideOut_eq hp k n hdvd

theorem countFactor_eq {p n : Nat} (hp : 1 < p) (hn : 0 < n) :
    n = p ^ (countFactor p n).1 * (countFactor p n).2 ∧ ¬ p ∣ (countFactor p n).2 := by
  refine divideOut_eq (by omega) _ n (fun hdvd => ?_)
  have hle := Nat.le_of_dvd hn hdvd
  have hpow : 2 ^ 2 ^ (Nat.log2 (Nat.log2 n + 1) + 1) ≤ p ^ 2 ^ (Nat.log2 (Nat.log2 n + 1) + 1) :=
    Nat.pow_le_pow_left hp _
  have hlt := lt_two_pow_two_pow n
  omega

/-! ## Numbers in 32 bits -/

theorem word32_natCast {n : Nat} (h : n ≤ maxScale) : word32 n = n := by
  unfold maxScale at h
  unfold word32
  omega

theorem word32_natCast_le (n : Nat) : word32 n ≤ n := by
  unfold word32
  omega

theorem word32_of_nonneg {n : Int} (hn : 0 ≤ n) (h : n.natAbs ≤ maxScale) : word32 n = n.natAbs := by
  conv_lhs => rw [← Int.natAbs_of_nonneg hn]
  exact word32_natCast h

/-- 32 bits hold how often two and five divide the number. -/
structure FactorsHeld (n : Nat) : Prop where
  twos : n.factorization 2 ≤ maxScale
  fives : n.factorization 5 ≤ maxScale

theorem factorsHeld_of_le {n : Nat} (hn : n ≠ 0) (h : n ≤ maxScale) : FactorsHeld n :=
  ⟨(Nat.factorization_lt 2 hn).le.trans h, (Nat.factorization_lt 5 hn).le.trans h⟩

/-! ## Finite expansions -/

theorem twoPow_mul_fivePow_dvd_iff (twos fives j : Nat) : 2 ^ twos * 5 ^ fives ∣ 10 ^ j ↔ max twos fives ≤ j := by
  have hten : 10 ^ j = 2 ^ j * 5 ^ j := mul_pow 2 5 j
  have hcoprime : ∀ m n : Nat, Nat.Coprime (2 ^ m) (5 ^ n) := fun m n => Nat.Coprime.pow m n (by decide)
  rw [hten]
  constructor
  · intro h
    have htwos : 2 ^ twos ∣ 2 ^ j := (hcoprime twos j).dvd_of_dvd_mul_right (dvd_of_mul_right_dvd h)
    have hfives : 5 ^ fives ∣ 5 ^ j := (hcoprime j fives).symm.dvd_of_dvd_mul_left (dvd_of_mul_left_dvd h)
    exact max_le ((Nat.pow_dvd_pow_iff_le_right (by decide)).1 htwos)
      ((Nat.pow_dvd_pow_iff_le_right (by decide)).1 hfives)
  · intro h
    exact Nat.mul_dvd_mul (pow_dvd_pow 2 (le_of_max_le_left h)) (pow_dvd_pow 5 (le_of_max_le_right h))

/-- **What the denominator is made of**, and what is decided from that. -/
theorem terminatingScale?_eq {den : Nat} (hden : 0 < den) : ∃ twos fives rest : Nat,
    den = 2 ^ twos * 5 ^ fives * rest ∧ Nat.Coprime rest 10 ∧
      terminatingScale? den = if rest = 1 then some (max (word32 twos) (word32 fives)) else none := by
  obtain ⟨htwos, hodd⟩ := countFactor_eq (p := 2) (by decide) hden
  have hrest : 0 < (countFactor 2 den).2 := Nat.pos_of_ne_zero (fun hzero => hodd (hzero ▸ dvd_zero 2))
  obtain ⟨hfives, hfive⟩ := countFactor_eq (p := 5) (by decide) hrest
  refine ⟨(countFactor 2 den).1, (countFactor 5 (countFactor 2 den).2).1, (countFactor 5 (countFactor 2 den).2).2,
    ?_, ?_, rfl⟩
  · rw [mul_assoc, ← hfives, ← htwos]
  · have htwo : ¬ 2 ∣ (countFactor 5 (countFactor 2 den).2).2 := fun hdvd => hodd (by
      rw [hfives]
      exact Dvd.dvd.mul_left hdvd _)
    rw [show 10 = 2 * 5 by rfl]
    exact Nat.Coprime.mul_right ((Nat.Prime.coprime_iff_not_dvd Nat.prime_two).2 htwo).symm
      ((Nat.Prime.coprime_iff_not_dvd Nat.prime_five).2 hfive).symm

theorem le_maxScale_of_pow_dvd {p count n : Nat} (hp : p.Prime) (hn : 0 < n) (hheld : n.factorization p ≤ maxScale)
    (hdvd : p ^ count ∣ n) : count ≤ maxScale :=
  ((hp.pow_dvd_iff_le_factorization hn.ne').1 hdvd).trans hheld

/-- **The scale that is found is the least** at which the denominator divides a power of ten. -/
theorem dvd_pow_iff_of_terminatingScale? {den k : Nat} (hden : 0 < den) (hheld : FactorsHeld den)
    (h : terminatingScale? den = some k) (j : Nat) : den ∣ 10 ^ j ↔ k ≤ j := by
  obtain ⟨twos, fives, rest, hproduct, -, hscale⟩ := terminatingScale?_eq hden
  have htwos : twos ≤ maxScale := le_maxScale_of_pow_dvd Nat.prime_two hden hheld.twos
    (hproduct ▸ Dvd.dvd.mul_right (Nat.dvd_mul_right _ _) _)
  have hfives : fives ≤ maxScale := le_maxScale_of_pow_dvd Nat.prime_five hden hheld.fives
    (hproduct ▸ Dvd.dvd.mul_right (Nat.dvd_mul_left _ _) _)
  rw [h, word32_natCast htwos, word32_natCast hfives] at hscale
  split at hscale
  next hrest =>
    cases hscale
    rw [hproduct, hrest, mul_one]
    exact twoPow_mul_fivePow_dvd_iff twos fives j
  next => cases hscale

/-- **The factors of a power of ten that a decimal may have are held.** -/
theorem factorsHeld_of_dvd_pow {den j : Nat} (h : den ∣ 10 ^ j) (hj : j ≤ maxScale) :
    FactorsHeld den := by
  have htwos : den.factorization 2 ≤ j := by
    have hdvd := (twoPow_mul_fivePow_dvd_iff _ 0 j).1 (by simpa using (Nat.ordProj_dvd den 2).trans h)
    omega
  have hfives : den.factorization 5 ≤ j := by
    have hdvd := (twoPow_mul_fivePow_dvd_iff 0 _ j).1 (by simpa using (Nat.ordProj_dvd den 5).trans h)
    omega
  exact ⟨htwos.trans hj, hfives.trans hj⟩

theorem exists_dvd_pow_of_terminatingScale? {den k : Nat} (hden : 0 < den) (h : terminatingScale? den = some k) :
    ∃ j, den ∣ 10 ^ j := by
  obtain ⟨twos, fives, rest, hproduct, -, hscale⟩ := terminatingScale?_eq hden
  rw [h] at hscale
  split at hscale
  next hrest =>
    rw [hproduct, hrest, mul_one]
    exact ⟨_, (twoPow_mul_fivePow_dvd_iff twos fives _).2 (Nat.le_refl _)⟩
  next => cases hscale

theorem not_dvd_pow_of_terminatingScale? {den : Nat} (hden : 0 < den) (h : terminatingScale? den = none) (j : Nat) :
    ¬ den ∣ 10 ^ j := by
  obtain ⟨twos, fives, rest, hden, hcoprime, hscale⟩ := terminatingScale?_eq hden
  rw [h] at hscale
  split at hscale
  next => cases hscale
  next hrest =>
    intro hdvd
    rw [hden] at hdvd
    exact hrest ((hcoprime.pow_right j).eq_one_of_dvd (dvd_of_mul_left_dvd hdvd))

/-- The number can be written with `k` digits behind the point. -/
def HasExpansion (q : ℚ) (k : Nat) : Prop := ∃ n : Int, q = n / 10 ^ k

theorem hasExpansion_iff (q : ℚ) (k : Nat) : HasExpansion q k ↔ q.den ∣ 10 ^ k := by
  constructor
  · rintro ⟨n, rfl⟩
    have hdvd := Rat.den_dvd n (10 ^ k)
    rw [Rat.divInt_eq_div] at hdvd
    push_cast at hdvd
    exact_mod_cast hdvd
  · rintro ⟨c, hc⟩
    have hten : (10 : ℚ) ^ k = q.den * c := by exact_mod_cast hc
    have hcpos : (c : ℚ) ≠ 0 := by
      rintro hzero
      rw [hzero, mul_zero] at hten
      exact absurd hten (by positivity)
    refine ⟨q.num * c, ?_⟩
    push_cast
    rw [hten, mul_div_mul_right _ _ hcpos, Rat.num_div_den]

end Decimal

end LooseExpr
