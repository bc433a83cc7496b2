import LooseExpr.Proofs.Decimal.Division
import Mathlib.Logic.Relation
/-!
# Stripping factors

The plain way to count how often a prime divides a number is to divide by it for as long as that works, one turn after
the other (`Stripping.turn?`).  That comes to an end for every number but zero, and it ends where `countFactor` says
(`Stripping.endsAt_countFactor`).  Stripping the twos and then the fives of a denominator decides whether a fraction in
lowest terms has a finite expansion: it has one exactly if nothing else is left, and then the greater count is the least
scale at which it can be written.  So a quotient that is put together at that scale is normal as it is.
-/
namespace LooseExpr

namespace Decimal

open Relation (ReflTransGen)

/-! ## One turn after the other -/

/-- A number that is being stripped of a factor: what is left of it, and how often it was divided. -/
structure Stripping where
  rest : Nat
  count : Nat

namespace Stripping

variable {p n : Nat} {s t : Stripping}

/-- One turn: divides once more, if that works. -/
def turn? (p : Nat) (s : Stripping) : Option Stripping :=
  if s.rest % p = 0 then some ⟨s.rest / p, s.count + 1⟩ else none

def Turns (p : Nat) (s t : Stripping) : Prop := s.turn? p = some t

/-- **Stripping comes to an end**: it cannot go on for ever, it comes to where no turn is left, and 32 bits hold the
counter all the way. -/
structure EndsAt (p : Nat) (s t : Stripping) : Prop where
  acc : Acc (fun t s => Turns p s t) s
  run : ReflTransGen (Turns p) s t
  stuck : t.turn? p = none
  held : ∀ u, ReflTransGen (Turns p) s u → u.count ≤ maxScale

theorem turns_iff : Turns p s t ↔ p ∣ s.rest ∧ t = ⟨s.rest / p, s.count + 1⟩ := by
  unfold Turns turn?
  rw [Nat.dvd_iff_mod_eq_zero]
  split
  next h => simp [h, eq_comm]
  next h => simp [h]

theorem turn?_eq_none_iff : s.turn? p = none ↔ ¬ p ∣ s.rest := by
  unfold turn?
  rw [Nat.dvd_iff_mod_eq_zero]
  split
  next h => simp [h]
  next h => simp [h]

/-- **A turn keeps the number**, the factors that are gone counted in. -/
theorem Turns.product_eq (h : Turns p s t) : p ^ t.count * t.rest = p ^ s.count * s.rest := by
  obtain ⟨hdvd, rfl⟩ := turns_iff.1 h
  rw [pow_succ, mul_assoc, Nat.mul_div_cancel' hdvd]

theorem product_of_run (h : ReflTransGen (Turns p) ⟨n, 0⟩ t) : p ^ t.count * t.rest = n := by
  induction h with
  | refl => rw [pow_zero, one_mul]
  | tail _ hturn ih => rw [hturn.product_eq, ih]

theorem rest_dvd_of_run (h : ReflTransGen (Turns p) ⟨n, 0⟩ t) : t.rest ∣ n := Dvd.intro_left _ (product_of_run h)

/-- **The counter stays within the exponent.** -/
theorem count_le_factorization (hp : p.Prime) (hn : 0 < n) (h : ReflTransGen (Turns p) ⟨n, 0⟩ t) :
    t.count ≤ n.factorization p :=
  (hp.pow_dvd_iff_le_factorization hn.ne').1 (Dvd.intro _ (product_of_run h))

/-- **Zero alone is stripped for ever**: any other number gets less with each turn, and does not become zero. -/
theorem acc_iff (hp : 1 < p) : Acc (fun t s => Turns p s t) s ↔ 0 < s.rest := by
  constructor
  · intro hacc
    induction hacc with
    | intro s _ ih =>
      by_contra hzero
      have hrest : s.rest = 0 := by omega
      -- zero divided is zero, so the next turn is no nearer to the end
      have hturn : Turns p s ⟨0, s.count + 1⟩ := turns_iff.2 (by simp [hrest])
      exact absurd (ih _ hturn) (Nat.lt_irrefl 0)
  · intro hpos
    -- on what is left, which stays positive: a turn divides it by a factor that it has
    induction hrest : s.rest using Nat.strong_induction_on generalizing s with
    | h rest ih =>
      refine ⟨s, fun t hturn => ?_⟩
      obtain ⟨hdvd, rfl⟩ := turns_iff.1 hturn
      have hless : s.rest / p < rest := hrest ▸ Nat.div_lt_self hpos hp
      exact ih _ hless (Nat.div_pos (Nat.le_of_dvd hpos hdvd) (by omega)) rfl

theorem run_of_pow_mul (hp : 0 < p) (rest : Nat) : ∀ count before : Nat,
    ReflTransGen (Turns p) ⟨p ^ count * rest, before⟩ ⟨rest, before + count⟩
  | 0, before => by
    rw [pow_zero, one_mul]
    exact .refl
  | count + 1, before => by
    have hturn : Turns p ⟨p ^ (count + 1) * rest, before⟩ ⟨p ^ count * rest, before + 1⟩ := by
      have hpow : p ^ (count + 1) * rest = p * (p ^ count * rest) := by ring
      rw [turns_iff, hpow, Nat.mul_div_cancel_left _ hp]
      exact ⟨Nat.dvd_mul_right _ _, rfl⟩
    have hrun := run_of_pow_mul hp rest count (before + 1)
    rw [Nat.add_assoc, Nat.add_comm 1] at hrun
    exact .head hturn hrun

/-- **Stripping ends where the search by halves does.** -/
theorem endsAt_countFactor (hp : p.Prime) (hn : 0 < n) (hheld : n.factorization p ≤ maxScale) :
    EndsAt p ⟨n, 0⟩ ⟨(countFactor p n).2, (countFactor p n).1⟩ := by
  obtain ⟨hproduct, hrest⟩ := countFactor_eq hp.one_lt hn
  have hrun := run_of_pow_mul hp.pos (countFactor p n).2 (countFactor p n).1 0
  rw [← hproduct, Nat.zero_add] at hrun
  exact ⟨(acc_iff hp.one_lt).2 hn, hrun, turn?_eq_none_iff.2 hrest,
    fun u hu => (count_le_factorization hp hn hu).trans hheld⟩

end Stripping

/-! ## Finite expansions -/

theorem terminatingScale?_eq_some_iff {den k : Nat} (hden : 0 < den) (hheld : FactorsHeld den) :
    terminatingScale? den = some k ↔ IsLeast {j | den ∣ 10 ^ j} k := by
  constructor
  · intro h
    have hdvd := dvd_pow_iff_of_terminatingScale? hden hheld h
    exact ⟨(hdvd k).2 (Nat.le_refl k), fun j hj => (hdvd j).1 hj⟩
  · rintro ⟨hk, hleast⟩
    cases h : terminatingScale? den with
    | none => exact absurd hk (not_dvd_pow_of_terminatingScale? hden h k)
    | some k' =>
      have hdvd := dvd_pow_iff_of_terminatingScale? hden hheld h
      exact congrArg some (Nat.le_antisymm ((hdvd k).1 hk) (hleast ((hdvd k').2 (Nat.le_refl k'))))

theorem exists_terminatingScale?_iff {den : Nat} (hden : 0 < den) :
    (∃ k, terminatingScale? den = some k) ↔ ∃ j, den ∣ 10 ^ j := by
  constructor
  · rintro ⟨k, h⟩
    exact exists_dvd_pow_of_terminatingScale? hden h
  · rintro ⟨j, hj⟩
    cases h : terminatingScale? den with
    | none => exact absurd hj (not_dvd_pow_of_terminatingScale? hden h j)
    | some k => exact ⟨k, rfl⟩

theorem eq_two_or_five_of_dvd_pow {q j : Nat} (hq : q.Prime) (h : q ∣ 10 ^ j) : q = 2 ∨ q = 5 := by
  have hten : q ∣ 2 * 5 := hq.dvd_of_dvd_pow h
  exact (hq.dvd_mul.1 hten).imp (Nat.prime_dvd_prime_iff_eq hq Nat.prime_two).1
    (Nat.prime_dvd_prime_iff_eq hq Nat.prime_five).1

/-- **An expansion is endless because of a prime that ten does not have.** -/
theorem terminatingScale?_eq_none_iff {den : Nat} (hden : 0 < den) :
    terminatingScale? den = none ↔ ∃ q : Nat, q.Prime ∧ q ∣ den ∧ q ≠ 2 ∧ q ≠ 5 := by
  constructor
  · intro h
    obtain ⟨twos, fives, rest, hproduct, hcoprime, hscale⟩ := terminatingScale?_eq hden
    rw [h] at hscale
    split at hscale
    next => cases hscale
    next hrest =>
      obtain ⟨q, hq, hdvd⟩ := Nat.exists_prime_and_dvd hrest
      have hten : ¬ q ∣ 10 := fun hten => hq.not_dvd_one (hcoprime ▸ Nat.dvd_gcd hdvd hten)
      refine ⟨q, hq, hproduct ▸ Dvd.dvd.mul_left hdvd _, ?_, ?_⟩
      · rintro rfl
        exact hten (by decide)
      · rintro rfl
        exact hten (by decide)
  · rintro ⟨q, hq, hdvd, htwo, hfive⟩
    cases h : terminatingScale? den with
    | none => rfl
    | some k =>
      obtain ⟨j, hpow⟩ := exists_dvd_pow_of_terminatingScale? hden h
      exact ((eq_two_or_five_of_dvd_pow hq (hdvd.trans hpow)).elim htwo hfive).elim

/-- **At the least scale no zero stands at the end**: it could be dropped, and the scale would not be the least. -/
theorem normal_of_terminating {num : Int} {den k : Nat} (hden : 0 < den) (hheld : FactorsHeld den)
    (hcoprime : num.natAbs.Coprime den) (h : terminatingScale? den = some k) :
    Normal ⟨num * (tenPow k / den : Nat), k⟩ := by
  have hdvd := dvd_pow_iff_of_terminatingScale? hden hheld h
  obtain ⟨c, hc⟩ := (hdvd k).2 (Nat.le_refl k)
  have hfactor : tenPow k / den = c := Nat.div_eq_of_eq_mul_right hden hc
  have hcpos : 0 < c := Nat.pos_of_ne_zero fun hzero => by
    rw [hzero, mul_zero] at hc
    exact absurd hc (by positivity)
  rw [hfactor]
  refine ⟨fun hzero => ?_, fun hpos hten => ?_⟩
  · have hnum : num = 0 := (mul_eq_zero.1 hzero).resolve_right (by exact_mod_cast hcpos.ne')
    have hone : den = 1 := by simpa [hnum] using hcoprime
    exact Nat.le_zero.1 ((hdvd 0).1 (by rw [hone]; exact one_dvd _))
  · obtain ⟨j, rfl⟩ : ∃ j, k = j + 1 := ⟨k - 1, by simp only at hpos; omega⟩
    have hten' : 10 ∣ num.natAbs * c := by
      have habs := Int.natAbs_dvd_natAbs.2 hten
      rwa [Int.natAbs_mul, Int.natAbs_natCast] at habs
    obtain ⟨m, hm⟩ := hten'
    -- both sides of `den * (num * c) = num * 10 ^ (j + 1)` lose a factor ten
    have hshort : den * m = num.natAbs * 10 ^ j := by
      have hlong : den * (num.natAbs * c) = num.natAbs * 10 ^ (j + 1) := by rw [hc]; ring
      rw [hm] at hlong
      exact Nat.eq_of_mul_eq_mul_left (by decide : 0 < 10) (by rw [pow_succ] at hlong; linarith)
    have hless : den ∣ 10 ^ j := hcoprime.symm.dvd_of_dvd_mul_left (Dvd.intro m hshort)
    exact absurd ((hdvd j).1 hless) (by omega)

theorem ofRatio_of_terminating {num : Int} {den k : Nat} (hden : 0 < den) (hheld : FactorsHeld den)
    (hcoprime : num.natAbs.Coprime den) (h : terminatingScale? den = some k) (precision : Nat) :
    ofRatio num den precision = ⟨num * (tenPow k / den : Nat), k⟩ := by
  unfold ofRatio
  rw [h]
  exact normalize_eq_self (normal_of_terminating hden hheld hcoprime h)

/-- **Stripping decides whether an expansion ends.**  For every positive denominator whose exponents of two and five fit
into 32 bits, stripping it of twos and then of fives comes to an end, and the scale is read off there.  There is one
exactly if the denominator divides a power of ten, and it is the least such power; there is none exactly if another prime
divides the denominator.  Over a numerator that has no factor with it in common, what is put together at that scale is
normal, so nothing is dropped from it.  Division asks for no other denominators: it comes to a fraction whose denominator
is positive and has no factor in common with the numerator, and at a scale that is found it has this result, as long as
the exponents fit there too. -/
theorem stripping_decides_expansion :
    (∀ den : Nat, 0 < den → den.factorization 2 ≤ maxScale → den.factorization 5 ≤ maxScale →
      (∃ twos fives : Stripping, Stripping.EndsAt 2 ⟨den, 0⟩ twos ∧ Stripping.EndsAt 5 ⟨twos.rest, 0⟩ fives ∧
        terminatingScale? den = if fives.rest = 1 then some (max twos.count fives.count) else none) ∧
      ((∃ k, terminatingScale? den = some k) ↔ ∃ j, den ∣ 10 ^ j) ∧
      (∀ k, terminatingScale? den = some k ↔ IsLeast {j | den ∣ 10 ^ j} k) ∧
      (terminatingScale? den = none ↔ ∃ q : Nat, q.Prime ∧ q ∣ den ∧ q ≠ 2 ∧ q ≠ 5) ∧
      ∀ (num : Int) (k : Nat), num.natAbs.Coprime den → terminatingScale? den = some k →
        Normal ⟨num * (tenPow k / den : Nat), k⟩ ∧
        ∀ precision, ofRatio num den precision = ⟨num * (tenPow k / den : Nat), k⟩) ∧
    ∀ a b : Decimal, a.isZero = false → b.isZero = false →
      0 < (fraction a b).2 ∧ (fraction a b).1.natAbs.Coprime (fraction a b).2.natAbs ∧
      ∀ precision, a.div? b precision = some (ofRatio (fraction a b).1 (fraction a b).2.natAbs precision) ∧
        ∀ k, (fraction a b).2.natAbs.factorization 2 ≤ maxScale → (fraction a b).2.natAbs.factorization 5 ≤ maxScale →
          terminatingScale? (fraction a b).2.natAbs = some k →
          a.div? b precision = some ⟨(fraction a b).1 * (tenPow k / (fraction a b).2.natAbs : Nat), k⟩ := by
  refine ⟨fun den hden htwos hfives => ⟨?_, exists_terminatingScale?_iff hden,
    fun k => terminatingScale?_eq_some_iff hden ⟨htwos, hfives⟩, terminatingScale?_eq_none_iff hden,
    fun num k hcoprime h => ⟨normal_of_terminating hden ⟨htwos, hfives⟩ hcoprime h,
      ofRatio_of_terminating hden ⟨htwos, hfives⟩ hcoprime h⟩⟩, fun a b ha hb => ?_⟩
  · have hends := Stripping.endsAt_countFactor Nat.prime_two hden htwos
    have hdvd := Stripping.rest_dvd_of_run hends.run
    have hrest := Nat.pos_of_dvd_of_pos hdvd hden
    have hheld := ((Nat.factorization_le_iff_dvd hrest.ne' hden.ne').2 hdvd 5).trans hfives
    have hends' := Stripping.endsAt_countFactor Nat.prime_five hrest hheld
    refine ⟨_, _, hends, hends', ?_⟩
    rw [← word32_natCast (hends.held _ hends.run), ← word32_natCast (hends'.held _ hends'.run)]
    rfl
  · have hpos : 0 < (fraction a b).2 := by
      rw [fraction_eq a hb]
      exact Int.natCast_pos.2 (Rat.den_pos _)
    have hcoprime : (fraction a b).1.natAbs.Coprime (fraction a b).2.natAbs := by
      rw [fraction_eq a hb]
      exact (a.value / b.value).reduced
    refine ⟨hpos, hcoprime, fun precision => ⟨div?_eq_ofRatio ha hb precision, fun k htwos hfives h => ?_⟩⟩
    rw [div?_eq_ofRatio ha hb, ofRatio_of_terminating (Int.natAbs_pos.2 hpos.ne') ⟨htwos, hfives⟩ hcoprime h]

/-- Three by forty: two takes three turns and five takes one, so the third place is the last. -/
theorem stripping_decides_three_fortieths :
    terminatingScale? 40 = some 3 ∧ IsLeast {j | 40 ∣ 10 ^ j} 3 ∧
      fraction (ofInt 3) (ofInt 40) = (3, 40) ∧ (ofInt 3).div? (ofInt 40) 1 = some ⟨75, 3⟩ := by
  have hscale : terminatingScale? 40 = some 3 := rfl
  have hheld : FactorsHeld 40 := factorsHeld_of_le (by decide) (by decide)
  obtain ⟨-, -, hleast, -⟩ := stripping_decides_expansion.1 40 (by decide) hheld.twos hheld.fives
  obtain ⟨-, -, hdiv⟩ := stripping_decides_expansion.2 (ofInt 3) (ofInt 40) rfl rfl
  exact ⟨hscale, (hleast 3).1 hscale, rfl, (hdiv 1).2 3 hheld.twos hheld.fives hscale⟩

end Decimal

end LooseExpr
