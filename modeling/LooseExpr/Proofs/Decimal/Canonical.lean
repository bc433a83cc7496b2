import LooseExpr.Proofs.Decimal.Reading
import LooseExpr.Proofs.Eval
import Mathlib.Algebra.Group.Nat.Defs
import Mathlib.Data.Int.Basic
import Mathlib.Data.List.Basic
import Mathlib.Data.List.Induction
/-!
# Canonical texts

Of the many texts that denote a number one is canonical: no zero in front that could be left out, none at the end of the
fraction, no minus before a zero, no plus and no exponent.  `CanonicalText` says so without a look at how decimals are
written.  Writing a normal decimal gives a canonical text (`Decimal.toText_eq_canonical`), and a canonical text is what is
written for the decimal that it is read as (`CanonicalText.toText_decimal`): both rest on the digits of a number being
the only ones without a needless zero (`Numeral.toDigits_digitsValue`).
-/
namespace LooseExpr

/-! ## Digits -/

namespace Numeral

/-- The number of a digit. -/
def digitValue (c : Char) : Nat := c.toNat - '0'.toNat

theorem digitChar_digitValue {c : Char} (h : c.isDigit = true) : (digitValue c).digitChar = c := by
  obtain ⟨hlow, hhigh⟩ := Char.isDigit_iff_toNat.1 h
  have h48 : 48 ≤ c.toNat := hlow
  have h57 : c.toNat ≤ 57 := hhigh
  have hsub : digitValue c = c.toNat - 48 := rfl
  have hlt : digitValue c < 10 := by omega
  rw [← Char.toNat_inj, Nat.toNat_digitChar_of_lt_ten hlt]
  omega

theorem digitValue_lt {c : Char} (h : c.isDigit = true) : digitValue c < 10 := by
  have hdigit : (digitValue c).digitChar.isDigit = true := by rw [digitChar_digitValue h, h]
  simpa [Nat.isDigit_digitChar] using hdigit

theorem digitValue_pos {c : Char} (h : c.isDigit = true) (hne : c ≠ '0') : 0 < digitValue c := by
  rw [Nat.pos_iff_ne_zero]
  intro hzero
  have hc := digitChar_digitValue h
  rw [hzero] at hc
  exact hne hc.symm

theorem digitsValue_cons (c : Char) (cs : List Char) :
    digitsValue (c :: cs) = 10 ^ cs.length * digitValue c + digitsValue cs := by
  unfold digitsValue
  rw [Nat.ofDigitChars_cons, Nat.ofDigitChars_eq_ofDigitChars_zero, Nat.mul_zero, Nat.zero_add]
  rfl

theorem digitsValue_concat (cs : List Char) (c : Char) :
    digitsValue (cs ++ [c]) = 10 * digitsValue cs + digitValue c := by
  unfold digitsValue
  rw [Nat.ofDigitChars_append, Nat.ofDigitChars_cons, Nat.ofDigitChars_nil]
  rfl

theorem digitsValue_zeros_append (n : Nat) (cs : List Char) :
    digitsValue (List.replicate n '0' ++ cs) = digitsValue cs := by
  unfold digitsValue
  rw [Nat.ofDigitChars_append, Nat.ofDigitChars_replicate_zero, Nat.mul_zero]

theorem digitsValue_pos {cs : List Char} (hdigit : ∀ c ∈ cs, c.isDigit = true) (hne : cs ≠ [])
    (hhead : cs.head? ≠ some '0') : 0 < digitsValue cs := by
  cases cs with
  | nil => exact absurd rfl hne
  | cons c cs =>
    have hc : 0 < digitValue c := digitValue_pos (hdigit c List.mem_cons_self) (fun heq => hhead (by rw [heq]; rfl))
    rw [digitsValue_cons]
    have : 0 < 10 ^ cs.length * digitValue c := Nat.mul_pos (Nat.pow_pos (by decide)) hc
    omega

/-- **Digits of which the first is no zero are the digits of their number.** -/
theorem toDigits_digitsValue {cs : List Char} (hdigit : ∀ c ∈ cs, c.isDigit = true) (hne : cs ≠ [])
    (hhead : cs.head? ≠ some '0') : Nat.toDigits 10 (digitsValue cs) = cs := by
  induction cs using List.reverseRecOn with
  | nil => exact absurd rfl hne
  | append_singleton front c ih =>
    have hc : c.isDigit = true := hdigit c (by simp)
    have hlast : Nat.toDigits 10 (digitValue c) = [c] := by
      rw [Nat.toDigits_of_lt_base (digitValue_lt hc), digitChar_digitValue hc]
    rw [digitsValue_concat]
    by_cases hfront : front = []
    · subst hfront
      simpa [digitsValue] using hlast
    · -- the digits before the last have no zero in front either, so they stand for a positive number
      have hdigit' : ∀ d ∈ front, d.isDigit = true := fun d hd => hdigit d (List.mem_append_left _ hd)
      have hhead' : front.head? ≠ some '0' := by rwa [List.head?_append_of_ne_nil _ hfront] at hhead
      rw [← Nat.toDigits_append_toDigits (by decide) (digitsValue_pos hdigit' hfront hhead') (digitValue_lt hc),
        ih hdigit' hfront hhead', hlast]

theorem head?_toDigits_ne_zero {n : Nat} (h : 0 < n) : (Nat.toDigits 10 n).head? ≠ some '0' := by
  induction n using Nat.strongRecOn with
  | _ n ih =>
    by_cases hlt : n < 10
    · rw [Nat.toDigits_of_lt_base hlt]
      intro hzero
      have := Nat.digitChar_eq_zero.1 (Option.some.inj hzero)
      omega
    · rw [Nat.toDigits_of_base_le (by decide) (by omega), List.head?_append_of_ne_nil _ Nat.toDigits_ne_nil]
      exact ih (n / 10) (by omega) (by omega)

theorem getLast?_toDigits (n : Nat) : (Nat.toDigits 10 n).getLast? = some (n % 10).digitChar := by
  by_cases hlt : n < 10
  · rw [Nat.toDigits_of_lt_base hlt, Nat.mod_eq_of_lt hlt]
    rfl
  · rw [Nat.toDigits_of_base_le (by decide) (by omega)]
    simp

end Numeral

/-! ## The grammar -/

/-- **A canonical text, by its parts**: a zero, or digits of which the first is no zero; fraction digits, if any, of
which the last is no zero; a minus only before a number that is not zero. -/
structure CanonicalText where
  negative : Bool
  whole : List Char
  fraction : List Char
  isDigit_whole : ∀ c ∈ whole, c.isDigit = true
  whole_ne_nil : whole ≠ []
  whole_head : whole = ['0'] ∨ whole.head? ≠ some '0'
  isDigit_fraction : ∀ c ∈ fraction, c.isDigit = true
  fraction_last : fraction.getLast? ≠ some '0'
  nonzero_of_negative : negative = true → whole = ['0'] → fraction ≠ []

namespace CanonicalText

def text (t : CanonicalText) : String :=
  String.ofList (Numeral.signChars t.negative ++ (t.whole ++ Numeral.pointed t.fraction))

/-- The digits on both sides of the point, as one number. -/
def magnitude (t : CanonicalText) : Nat := Numeral.digitsValue (t.whole ++ t.fraction)

/-- The decimal that the text denotes. -/
def decimal (t : CanonicalText) : Decimal :=
  ⟨if t.negative then -t.magnitude else t.magnitude, t.fraction.length⟩

theorem natAbs_mantissa (t : CanonicalText) : t.decimal.mantissa.natAbs = t.magnitude := by
  cases hsign : t.negative <;> simp [decimal, hsign]

theorem magnitude_mod_ten (t : CanonicalText) (h : t.fraction ≠ []) : t.magnitude % 10 ≠ 0 := by
  obtain ⟨front, c, hsplit⟩ := (List.eq_nil_or_concat t.fraction).resolve_left h
  have hdigit : c.isDigit = true := t.isDigit_fraction c (by simp [hsplit])
  have hne : c ≠ '0' := fun hc => t.fraction_last (by simp [hsplit, hc])
  have hpos := Numeral.digitValue_pos hdigit hne
  have hlt := Numeral.digitValue_lt hdigit
  unfold magnitude
  rw [hsplit, List.concat_eq_append, ← List.append_assoc, Numeral.digitsValue_concat]
  omega

theorem decimal_normal (t : CanonicalText) : t.decimal.Normal := by
  have hlast : t.decimal.scale ≠ 0 → t.magnitude % 10 ≠ 0 := fun hscale =>
    t.magnitude_mod_ten (fun hnil => hscale (by simp [decimal, hnil]))
  have habs := t.natAbs_mantissa
  refine ⟨fun hzero => ?_, fun hpos hdvd => ?_⟩
  · by_contra hscale
    have := hlast hscale
    omega
  · have := hlast (by omega)
    omega

theorem ofText?_text (t : CanonicalText) : Decimal.ofText? t.text = some t.decimal := by
  have hscan := Numeral.scan?_plain t.negative t.whole_ne_nil t.isDigit_whole t.isDigit_fraction
  unfold Decimal.ofText? text
  rw [String.toList_ofList, hscan, Option.map_some]
  congr 1
  unfold Numeral.toDecimal
  simp only [Int.sub_zero, Int.natCast_nonneg, if_true, Int.toNat_natCast]
  exact Decimal.normalize_eq_self t.decimal_normal

/-- Zeros in front of fraction digits, and then the digits of the fraction as a number. -/
theorem fraction_eq_zeros_append (t : CanonicalText) (h : t.fraction ≠ []) :
    ∃ n, t.fraction = List.replicate n '0' ++ Nat.toDigits 10 (Numeral.digitsValue t.fraction) := by
  let rest := t.fraction.dropWhile (· == '0')
  have hzeros : t.fraction.takeWhile (· == '0') = List.replicate (t.fraction.takeWhile (· == '0')).length '0' :=
    List.eq_replicate_of_mem (fun c hc => by simpa using List.mem_takeWhile_imp hc)
  have hsplit : t.fraction = List.replicate (t.fraction.takeWhile (· == '0')).length '0' ++ rest := by
    rw [← hzeros, List.takeWhile_append_dropWhile]
  have hdigit : ∀ c ∈ rest, c.isDigit = true := fun c hc => t.isDigit_fraction c (List.dropWhile_subset _ hc)
  -- were there zeros only, the last digit would be one
  have hne : rest ≠ [] := by
    intro hnil
    obtain ⟨front, c, hlast⟩ := (List.eq_nil_or_concat t.fraction).resolve_left h
    have hall := List.dropWhile_eq_nil_iff.1 hnil c (by simp [hlast])
    exact t.fraction_last (by simpa [hlast] using hall)
  have hhead : rest.head? ≠ some '0' := by
    intro hzero
    have := List.head?_dropWhile_not (· == '0') t.fraction
    simp [rest] at hzero
    simp [hzero] at this
  refine ⟨(t.fraction.takeWhile (· == '0')).length, ?_⟩
  have hvalue : Numeral.digitsValue t.fraction = Numeral.digitsValue rest := by
    rw [hsplit, Numeral.digitsValue_zeros_append]
  rw [hvalue, Numeral.toDigits_digitsValue hdigit hne hhead]
  exact hsplit

theorem magnitude_pos_of_negative (t : CanonicalText) (h : t.negative = true) : 0 < t.magnitude := by
  rcases t.whole_head with hzero | hhead
  · have := t.magnitude_mod_ten (t.nonzero_of_negative h hzero)
    omega
  · refine Numeral.digitsValue_pos (fun c hc => ?_) (by simp [t.whole_ne_nil]) ?_
    · exact (List.mem_append.1 hc).elim (t.isDigit_whole c) (t.isDigit_fraction c)
    · rwa [List.head?_append_of_ne_nil _ t.whole_ne_nil]

/-- **The number is taken apart at the point where it was put together.** -/
theorem parts_toDigits_magnitude (t : CanonicalText) :
    Decimal.wholeChars (Nat.toDigits 10 t.magnitude) t.fraction.length = t.whole ∧
      Decimal.fractionChars (Nat.toDigits 10 t.magnitude) t.fraction.length = t.fraction := by
  unfold Decimal.wholeChars Decimal.fractionChars
  rcases t.whole_head with hzero | hhead
  · have hmagnitude : t.magnitude = Numeral.digitsValue t.fraction := by
      unfold magnitude
      rw [hzero]
      exact Numeral.digitsValue_zeros_append 1 t.fraction
    by_cases hfraction : t.fraction = []
    · have hdigits : Nat.toDigits 10 t.magnitude = ['0'] := by
        rw [hmagnitude, hfraction]
        rfl
      simp [hdigits, hfraction, hzero]
    · obtain ⟨n, hn⟩ := t.fraction_eq_zeros_append hfraction
      rw [← hmagnitude] at hn
      have hlength : t.fraction.length = n + (Nat.toDigits 10 t.magnitude).length := by
        rw [hn, List.length_append, List.length_replicate]
      have hlt : ¬ t.fraction.length < (Nat.toDigits 10 t.magnitude).length := by omega
      rw [if_neg hlt, if_neg hlt, hlength, Nat.add_sub_cancel]
      exact ⟨hzero.symm, hn.symm⟩
  · have hdigits : Nat.toDigits 10 t.magnitude = t.whole ++ t.fraction := by
      refine Numeral.toDigits_digitsValue (fun c hc => ?_) (by simp [t.whole_ne_nil]) ?_
      · exact (List.mem_append.1 hc).elim (t.isDigit_whole c) (t.isDigit_fraction c)
      · rwa [List.head?_append_of_ne_nil _ t.whole_ne_nil]
    have hpos := List.length_pos_iff.2 t.whole_ne_nil
    have hlt : t.fraction.length < (t.whole ++ t.fraction).length := by
      rw [List.length_append]
      omega
    rw [hdigits, if_pos hlt, if_pos hlt]
    simp

/-- **A canonical text is written again for the decimal that it denotes.** -/
theorem toText_decimal (t : CanonicalText) : t.decimal.toText = t.text := by
  have hsign : decide (t.decimal.mantissa < 0) = t.negative := by
    cases hneg : t.negative with
    | false => simp [decimal, hneg]
    | true =>
      have := t.magnitude_pos_of_negative hneg
      simp [decimal, hneg]
      omega
  have hdigits : t.decimal.magnitudeChars = Nat.toDigits 10 t.magnitude := by
    rw [Decimal.magnitudeChars, natAbs_mantissa]
  obtain ⟨hwhole, hfraction⟩ := t.parts_toDigits_magnitude
  unfold Decimal.toText text
  rw [Decimal.toChars_eq, hsign, hdigits, show t.decimal.scale = t.fraction.length from rfl, hwhole, hfraction]

end CanonicalText

/-! ## What is written -/

namespace Decimal

theorem magnitudeChars_head {d : Decimal} (h : d.mantissa ≠ 0) : d.magnitudeChars.head? ≠ some '0' :=
  Numeral.head?_toDigits_ne_zero (Int.natAbs_pos.2 h)

theorem wholeChars_head {d : Decimal} (h : d.Normal) :
    wholeChars d.magnitudeChars d.scale = ['0'] ∨ (wholeChars d.magnitudeChars d.scale).head? ≠ some '0' := by
  by_cases hzero : d.mantissa = 0
  · left
    simp [wholeChars, magnitudeChars, hzero, h.1 hzero]
  · unfold wholeChars
    split
    · rename_i hlt
      right
      rw [List.head?_take, if_neg (by omega)]
      exact magnitudeChars_head hzero
    · exact .inl rfl

theorem fractionChars_last {d : Decimal} (h : d.Normal) :
    (fractionChars d.magnitudeChars d.scale).getLast? ≠ some '0' := by
  by_cases hscale : d.scale = 0
  · have hnil : fractionChars d.magnitudeChars d.scale = [] :=
      List.length_eq_zero_iff.1 (by rw [length_fractionChars, hscale])
    simp [hnil]
  · -- the last digit of the fraction is the last digit of the mantissa
    have hlast : (fractionChars d.magnitudeChars d.scale).getLast? = d.magnitudeChars.getLast? := by
      unfold fractionChars
      split
      · rw [List.getLast?_drop, if_neg (by omega)]
      · exact List.getLast?_append_of_ne_nil _ Nat.toDigits_ne_nil
    rw [hlast, magnitudeChars, Numeral.getLast?_toDigits]
    intro heq
    have hmod := Nat.digitChar_eq_zero.1 (Option.some.inj heq)
    exact h.2 (Nat.pos_of_ne_zero hscale) (Int.natCast_dvd.2 (Nat.dvd_of_mod_eq_zero hmod))

theorem fractionChars_ne_nil_of_neg {d : Decimal} (hneg : d.mantissa < 0)
    (hwhole : wholeChars d.magnitudeChars d.scale = ['0']) : fractionChars d.magnitudeChars d.scale ≠ [] := by
  intro hfraction
  have hvalue := digitsValue_parts d.magnitudeChars d.scale
  have hdigits : Numeral.digitsValue d.magnitudeChars = d.mantissa.natAbs := Nat.ofDigitChars_ten_toDigits
  have hzero : Numeral.digitsValue ['0'] = 0 := rfl
  rw [hwhole, hfraction, List.append_nil, hzero, hdigits] at hvalue
  omega

/-- The parts of the text of a normal decimal. -/
def canonicalText (d : Decimal) (h : d.Normal) : CanonicalText where
  negative := d.mantissa < 0
  whole := wholeChars d.magnitudeChars d.scale
  fraction := fractionChars d.magnitudeChars d.scale
  isDigit_whole := isDigit_wholeChars d.isDigit_magnitudeChars _
  whole_ne_nil := wholeChars_ne_nil _ _
  whole_head := wholeChars_head h
  isDigit_fraction := isDigit_fractionChars d.isDigit_magnitudeChars _
  fraction_last := fractionChars_last h
  nonzero_of_negative hneg hwhole := fractionChars_ne_nil_of_neg (by simpa using hneg) hwhole

/-- **What is written for a normal decimal is canonical.** -/
theorem toText_eq_canonical {d : Decimal} (h : d.Normal) : d.toText = (d.canonicalText h).text := by
  unfold toText CanonicalText.text
  rw [toChars_eq]
  rfl

theorem parse_of_ofText? {text : String} {d : Decimal} (h : ofText? text = some d) : parse text = .ok d := by
  unfold parse
  rw [h]

end Decimal

/-! ## Arithmetic -/

/-- **Arithmetic that has a value, unpacked**: the operands in their order, the calculation and its text. -/
theorem Ref.ok_of_resolve_arith {op : NumberOp} {l r : Ref} {lenient : Bool} {s s' : Session} {v : Value}
    (h : ((Ref.arith op l r).resolve lenient).run s = (.ok v, s')) :
    ∃ left right a b d t, (l.resolve false).run s = (.ok left, t) ∧ left.toDecimal = .ok a ∧
      (r.resolve false).run t = (.ok right, s') ∧ right.toDecimal = .ok b ∧
      op.compute a b s'.settings.divisionPrecision.toNat = .ok d ∧ v = .text d.toText := by
  have hfree : s.limited = false := by
    by_contra hlimited
    rw [Ref.resolve, Eval.run_bind_of_error (Eval.run_ensureUnrestricted_of_limited (by simpa using hlimited))] at h
    cases h
  rw [Ref.resolve, Eval.run_bind_of_ok (Eval.run_ensureUnrestricted hfree)] at h
  obtain ⟨left, t, hl, h⟩ := Eval.ok_of_run_bind h
  obtain ⟨a, ha, h⟩ := Eval.ok_of_run_lift_bind h
  obtain ⟨right, u, hr, h⟩ := Eval.ok_of_run_bind h
  obtain ⟨b, hb, h⟩ := Eval.ok_of_run_lift_bind h
  obtain ⟨d, u', hd, h⟩ := Eval.ok_of_run_bind h
  cases h
  have hcompute : (Eval.compute op a b).run u =
      ((op.compute a b u.settings.divisionPrecision.toNat).mapError .arithmetic, u) := rfl
  rw [hcompute] at hd
  cases hc : op.compute a b u.settings.divisionPrecision.toNat with
  | error why =>
    rw [hc] at hd
    cases hd
  | ok d' =>
    rw [hc] at hd
    cases hd
    exact ⟨left, right, a, b, d, t, hl, ha, hr, hb, hc, rfl⟩

/-- **Decimals and canonical texts stand for each other**: a normal decimal is written canonically and read back; a
canonical text is read, and written again as it was; and the text that arithmetic comes to is such a text, of the decimal
that was calculated. -/
theorem Decimal.canonical_text_roundtrip :
    (∀ d : Decimal, d.Normal → parse d.toText = .ok d ∧ ∃ t : CanonicalText, d.toText = t.text) ∧
    (∀ t : CanonicalText, t.fraction.length ≤ maxScale →
      ∃ d : Decimal, d.Normal ∧ d.scale ≤ maxScale ∧ parse t.text = .ok d ∧ d.toText = t.text) ∧
    (∀ (op : NumberOp) (l r : Ref) (lenient : Bool) (s s' : Session) (v : Value),
      ((Ref.arith op l r).resolve lenient).run s = (.ok v, s') →
      ∃ left right a b d t, (l.resolve false).run s = (.ok left, t) ∧ left.toDecimal = .ok a ∧
        (r.resolve false).run t = (.ok right, s') ∧ right.toDecimal = .ok b ∧
        op.compute a b s'.settings.divisionPrecision.toNat = .ok d ∧ v = .text d.toText ∧
        parse d.toText = .ok d ∧ ∃ t : CanonicalText, d.toText = t.text) := by
  have hwritten : ∀ d : Decimal, d.Normal → parse d.toText = .ok d ∧ ∃ t : CanonicalText, d.toText = t.text :=
    fun d hd => ⟨parse_of_ofText? (ofText?_toText hd), d.canonicalText hd, toText_eq_canonical hd⟩
  refine ⟨hwritten, fun t ht => ?_, fun op l r lenient s s' v h => ?_⟩
  · exact ⟨t.decimal, t.decimal_normal, ht, parse_of_ofText? t.ofText?_text, t.toText_decimal⟩
  · obtain ⟨left, right, a, b, d, t, hl, ha, hr, hb, hd, hv⟩ := Ref.ok_of_resolve_arith h
    exact ⟨left, right, a, b, d, t, hl, ha, hr, hb, hd, hv, hwritten d (NumberOp.compute_normal hd)⟩

/-- The text `-12.05`. -/
def CanonicalText.minusTwelve : CanonicalText where
  negative := true
  whole := ['1', '2']
  fraction := ['0', '5']
  isDigit_whole := by simp [Char.isDigit]
  whole_ne_nil := by decide
  whole_head := by decide
  isDigit_fraction := by simp [Char.isDigit]
  fraction_last := by decide
  nonzero_of_negative := by decide

/-- Divides the text `1` by the number eight. -/
def Ref.eighth : Ref := .arith .divide (.literal (.text "1")) (.literal (.number ⟨8, 0⟩))

set_option maxRecDepth 10000 in
theorem Decimal.canonical_text_roundtrip_eighth :
    parse (toText ⟨-5, 3⟩) = .ok ⟨-5, 3⟩ ∧
    (∃ d : Decimal, d.Normal ∧ d.scale ≤ maxScale ∧ parse CanonicalText.minusTwelve.text = .ok d ∧
      d.toText = CanonicalText.minusTwelve.text) ∧
    ∃ d : Decimal, Value.text "0.125" = .text d.toText ∧ parse d.toText = .ok d := by
  obtain ⟨hwritten, hread, harith⟩ := canonical_text_roundtrip
  have hrun : (Ref.eighth.resolve false).run (.new {} false) = (.ok (.text "0.125"), .new {} false) := by rfl
  obtain ⟨_, _, _, _, d, _, _, _, _, _, _, hv, hparse, _⟩ := harith _ _ _ _ _ _ _ hrun
  exact ⟨(hwritten ⟨-5, 3⟩ ⟨by decide, by decide⟩).1, hread .minusTwelve (by decide), d, hv, hparse⟩

end LooseExpr
