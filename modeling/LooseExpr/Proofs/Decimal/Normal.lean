import LooseExpr.Comparison
/-!
# Normal decimals

`Decimal.normalize` leaves no zero at the end of a fraction and writes zero in one way, and it changes nothing that is
normal already.  Every calculation ends in it, or in a whole number, so the result of `NumberOp.compute` is normal
whatever its operands were (`NumberOp.compute_normal`).
-/
namespace LooseExpr

namespace Decimal

/-- **What is left after the zeros at the end were dropped ends in no zero.** -/
theorem strip_normal : ∀ (scale : Nat) (mantissa : Int), mantissa ≠ 0 → (strip mantissa scale).Normal
  | 0, mantissa, h => ⟨fun h0 => absurd h0 h, fun hpos => absurd hpos (Nat.lt_irrefl 0)⟩
  | scale + 1, mantissa, h => by
    unfold strip
    split
    · rename_i hm
      exact strip_normal scale (mantissa / 10) (by omega)
    · rename_i hm
      exact ⟨fun h0 => absurd h0 h, fun _ hdvd => hm (Int.emod_eq_zero_of_dvd hdvd)⟩

theorem ofInt_normal (n : Int) : (ofInt n).Normal :=
  ⟨fun _ => rfl, fun hpos => absurd hpos (Nat.lt_irrefl 0)⟩

theorem normalize_normal (mantissa : Int) (scale : Nat) : (normalize mantissa scale).Normal := by
  unfold normalize
  split
  · exact ofInt_normal 0
  · rename_i h
    exact strip_normal scale mantissa h

theorem strip_eq_self (mantissa : Int) (scale : Nat) (h : 0 < scale → ¬ (10 : Int) ∣ mantissa) :
    strip mantissa scale = ⟨mantissa, scale⟩ := by
  cases scale with
  | zero => rfl
  | succ scale =>
    unfold strip
    rw [if_neg (fun hm => h (Nat.succ_pos scale) (Int.dvd_of_emod_eq_zero hm))]

/-- **A normal decimal stays as it is.** -/
theorem normalize_eq_self {d : Decimal} (h : d.Normal) : normalize d.mantissa d.scale = d := by
  obtain ⟨mantissa, scale⟩ := d
  obtain ⟨hzero, hlast⟩ := h
  simp only at hzero hlast
  unfold normalize
  split
  · rename_i hm
    simp only at hm
    rw [hm, hzero hm]
  · exact strip_eq_self mantissa scale hlast

theorem mul_normal {a b d : Decimal} (h : a.mul b = .ok d) : d.Normal := by
  unfold mul at h
  split at h
  · cases h
    exact normalize_normal _ _
  · cases h

theorem roundQuotient_normal (num : Int) (den precision : Nat) : (roundQuotient num den precision).Normal := by
  unfold roundQuotient
  simp only
  split
  · exact normalize_normal _ _
  · exact normalize_normal _ _

theorem ofRatio_normal (num : Int) (den precision : Nat) : (ofRatio num den precision).Normal := by
  unfold ofRatio
  split
  · exact normalize_normal _ _
  · exact roundQuotient_normal _ _ _

theorem div?_normal {a b d : Decimal} {precision : Nat} (h : a.div? b precision = some d) : d.Normal := by
  unfold div? at h
  split at h
  · cases h
  split at h
  · cases h
    exact ofInt_normal 0
  · cases h
    exact ofRatio_normal _ _ _

theorem rem?_normal {a b d : Decimal} (h : a.rem? b = some d) : d.Normal := by
  unfold rem? at h
  split at h
  · cases h
  · cases h
    exact normalize_normal _ _

theorem intDiv?_normal {a b d : Decimal} (h : a.intDiv? b = some d) : d.Normal := by
  unfold intDiv? at h
  split at h
  · cases h
  · cases h
    exact ofInt_normal _

theorem pow_normal {a d : Decimal} {n : Int} {precision : Nat} (h : a.pow n precision = .ok d) : d.Normal := by
  unfold pow at h
  split at h
  · cases h
  split at h
  · cases h
  split at h
  · cases h
  simp only at h
  split at h
  · cases h
    exact normalize_normal _ _
  split at h
  · rename_i q hq
    cases h
    exact div?_normal hq
  · cases h

end Decimal

theorem ArithmeticFault.eq_some_of_ofQuotient {q : Option Decimal} {d : Decimal} (h : ofQuotient q = .ok d) :
    q = some d := by
  cases q with
  | none => cases h
  | some d' => cases h; rfl

/-- **The result of a calculation is normal**, also if an operand is not. -/
theorem NumberOp.compute_normal {op : NumberOp} {l r d : Decimal} {precision : Nat}
    (h : op.compute l r precision = .ok d) : d.Normal := by
  cases op with
  | plus => cases h; exact Decimal.normalize_normal _ _
  | minus => cases h; exact Decimal.normalize_normal _ _
  | multiply => exact Decimal.mul_normal h
  | divide => exact Decimal.div?_normal (ArithmeticFault.eq_some_of_ofQuotient h)
  | intDivide => exact Decimal.intDiv?_normal (ArithmeticFault.eq_some_of_ofQuotient h)
  | modulus => exact Decimal.rem?_normal (ArithmeticFault.eq_some_of_ofQuotient h)
  | exp =>
    unfold compute at h
    simp only at h
    split at h
    · exact Decimal.pow_normal h
    · cases h

end LooseExpr
