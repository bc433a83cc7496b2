import LooseExpr.Proofs.Decimal.Value
/-!
# The grammar of written numbers

A written number is an optional sign, digits, an optional point with more digits, and an optional exponent.
`NumberText` says so by its parts, and `NumberText.value` says which number they denote; neither looks at the scanner.

The scanner takes such a text apart into just these parts (`NumberText.scan?_chars`), and whatever it takes apart is
such a text (`NumberText.exists_of_scan?`), so nothing else is read.
-/
namespace LooseExpr

inductive SignMark where
  | absent
  | plus
  | minus
deriving DecidableEq

namespace SignMark

def chars : SignMark → List Char
  | absent => []
  | plus => ['+']
  | minus => ['-']

def negative : SignMark → Bool
  | minus => true
  | _ => false

def factor : SignMark → Int
  | minus => -1
  | _ => 1

theorem ite_negative (m : SignMark) (n : Int) : (if m.negative then -n else n) = m.factor * n := by
  cases m <;> simp [negative, factor]

theorem natAbs_factor_mul (m : SignMark) (n : Int) : (m.factor * n).natAbs = n.natAbs := by
  cases m <;> simp [factor]

end SignMark

/-- An exponent; zeros in front of its digits do not count. -/
structure ExponentText where
  mark : Char
  sign : SignMark
  digits : List Char
  mark_eq : mark = 'e' ∨ mark = 'E'
  digits_ne_nil : digits ≠ []
  isDigit_digits : ∀ c ∈ digits, c.isDigit = true

namespace ExponentText

def chars (x : ExponentText) : List Char := x.mark :: (x.sign.chars ++ x.digits)

def number (x : ExponentText) : Int := x.sign.factor * Numeral.digitsValue x.digits

end ExponentText

/-- **A written number, by its parts**: there is a digit on one side of the point at least, and the exponent is not too
large. -/
structure NumberText where
  sign : SignMark
  whole : List Char
  /-- The digits after the point, if there is a point. -/
  fraction : Option (List Char)
  exponent : Option ExponentText
  isDigit_whole : ∀ c ∈ whole, c.isDigit = true
  isDigit_fraction : ∀ c ∈ fraction.getD [], c.isDigit = true
  digits_ne_nil : whole ++ fraction.getD [] ≠ []
  exponent_le : (exponent.elim 0 ExponentText.number).natAbs ≤ 100000

namespace NumberText

def fractionChars (fraction : Option (List Char)) : List Char := fraction.elim [] ('.' :: ·)

def exponentChars (exponent : Option ExponentText) : List Char := exponent.elim [] ExponentText.chars

def chars (t : NumberText) : List Char :=
  t.sign.chars ++ (t.whole ++ (fractionChars t.fraction ++ exponentChars t.exponent))

def text (t : NumberText) : String := String.ofList t.chars

def exponentNumber (t : NumberText) : Int := t.exponent.elim 0 ExponentText.number

/-- The number that a written number denotes. -/
def value (t : NumberText) : ℚ :=
  t.sign.factor * Numeral.digitsValue (t.whole ++ t.fraction.getD []) *
    10 ^ (t.exponentNumber - (t.fraction.getD []).length)

/-- What the scanner makes of a written number. -/
def numeral (t : NumberText) : Numeral := ⟨t.sign.negative, t.whole, t.fraction.getD [], t.exponentNumber⟩

end NumberText

/-! ## Signs -/

namespace Numeral

theorem ne_sign_of_isDigit {c : Char} (h : c.isDigit = true) : c ≠ '-' ∧ c ≠ '+' := by
  constructor
  · rintro rfl
    cases h
  · rintro rfl
    cases h

theorem sign_chars (m : SignMark) {cs : List Char} (h : ∀ c, cs.head? = some c → c ≠ '-' ∧ c ≠ '+') :
    sign (m.chars ++ cs) = (m.negative, cs) := by
  cases m with
  | plus => rfl
  | minus => rfl
  | absent =>
    cases cs with
    | nil => rfl
    | cons c cs =>
      obtain ⟨hminus, hplus⟩ := h c rfl
      simp [SignMark.chars, SignMark.negative, sign, hminus, hplus]

theorem exists_signMark (cs : List Char) : ∃ m : SignMark, m.chars ++ (sign cs).2 = cs ∧ m.negative = (sign cs).1 := by
  unfold sign
  split
  · exact ⟨.minus, rfl, rfl⟩
  · exact ⟨.plus, rfl, rfl⟩
  · exact ⟨.absent, rfl, rfl⟩

/-! ## Exponents -/

theorem exponentPart?_exponentChars {exponent : Option ExponentText}
    (h : (exponent.elim 0 ExponentText.number).natAbs ≤ 100000) :
    exponentPart? (NumberText.exponentChars exponent) = some (exponent.elim 0 ExponentText.number) := by
  cases exponent with
  | none => rfl
  | some x =>
    have hsign : sign (x.sign.chars ++ x.digits) = (x.sign.negative, x.digits) := by
      refine sign_chars x.sign (fun c hc => ne_sign_of_isDigit (x.isDigit_digits c ?_))
      exact List.mem_of_mem_head? hc
    have hbound : digitsValue x.digits ≤ maxExponent := by
      rwa [Option.elim_some, ExponentText.number, SignMark.natAbs_factor_mul] at h
    have hall : x.digits.all Char.isDigit = true := List.all_eq_true.2 x.isDigit_digits
    simp only [NumberText.exponentChars, Option.elim_some, ExponentText.chars, exponentPart?, hsign]
    rw [if_pos ⟨x.mark_eq, x.digits_ne_nil, hall, hbound⟩, SignMark.ite_negative]
    rfl

theorem exists_exponent {cs : List Char} {n : Int} (h : exponentPart? cs = some n) :
    ∃ exponent : Option ExponentText, NumberText.exponentChars exponent = cs ∧
      exponent.elim 0 ExponentText.number = n ∧ n.natAbs ≤ 100000 := by
  cases cs with
  | nil =>
    cases h
    exact ⟨none, rfl, rfl, by decide⟩
  | cons mark cs =>
    obtain ⟨m, hchars, hnegative⟩ := exists_signMark cs
    simp only [exponentPart?] at h
    split at h
    · rename_i hok
      obtain ⟨hmark, hne, hall, hle⟩ := hok
      rw [← hnegative, SignMark.ite_negative] at h
      cases h
      refine ⟨some ⟨mark, m, (sign cs).2, hmark, hne, List.all_eq_true.1 hall⟩, ?_, rfl, ?_⟩
      · simp [NumberText.exponentChars, ExponentText.chars, hchars]
      · rw [SignMark.natAbs_factor_mul]
        exact hle
    · cases h

/-! ## Digits and fractions -/

theorem span_digits {digits rest : List Char} (h : ∀ c ∈ digits, c.isDigit = true)
    (hrest : ∀ c, rest.head? = some c → c.isDigit = false) :
    (digits ++ rest).takeWhile Char.isDigit = digits ∧ (digits ++ rest).dropWhile Char.isDigit = rest := by
  rw [List.takeWhile_append_of_pos h, List.dropWhile_append_of_pos h]
  cases rest with
  | nil => simp
  | cons c cs => simp [hrest c rfl]

theorem head?_exponentChars {exponent : Option ExponentText} {c : Char}
    (h : (NumberText.exponentChars exponent).head? = some c) : c.isDigit = false ∧ c ≠ '.' := by
  cases exponent with
  | none => cases h
  | some x =>
    cases h
    rcases x.mark_eq with hmark | hmark
    · rw [hmark]
      exact ⟨rfl, by decide⟩
    · rw [hmark]
      exact ⟨rfl, by decide⟩

theorem fractionPart_fractionChars {fraction : Option (List Char)} (h : ∀ c ∈ fraction.getD [], c.isDigit = true)
    (exponent : Option ExponentText) :
    fractionPart (NumberText.fractionChars fraction ++ NumberText.exponentChars exponent) =
      (fraction.getD [], NumberText.exponentChars exponent) := by
  cases fraction with
  | none =>
    cases hrest : NumberText.exponentChars exponent with
    | nil => rfl
    | cons c cs =>
      have hc : c ≠ '.' := (head?_exponentChars (by rw [hrest]; rfl)).2
      simp [NumberText.fractionChars, fractionPart, hc]
  | some digits =>
    obtain ⟨htake, hdrop⟩ := span_digits h (fun c hc => (head?_exponentChars hc).1)
    simp only [NumberText.fractionChars, Option.elim_some, List.cons_append, fractionPart]
    exact Prod.ext htake hdrop

theorem exists_fraction (cs : List Char) : ∃ fraction : Option (List Char),
    NumberText.fractionChars fraction ++ (fractionPart cs).2 = cs ∧ fraction.getD [] = (fractionPart cs).1 ∧
      ∀ c ∈ fraction.getD [], c.isDigit = true := by
  unfold fractionPart
  split
  · rename_i cs
    refine ⟨some (cs.takeWhile Char.isDigit), ?_, rfl, fun c hc => List.mem_takeWhile_imp hc⟩
    simp [NumberText.fractionChars]
  · exact ⟨none, rfl, rfl, by simp⟩

end Numeral

/-! ## The scanner and the grammar -/

namespace NumberText

theorem head?_fractionChars_append {fraction : Option (List Char)} {exponent : Option ExponentText} {c : Char}
    (h : (fractionChars fraction ++ exponentChars exponent).head? = some c) : c.isDigit = false := by
  cases fraction with
  | none => exact (Numeral.head?_exponentChars h).1
  | some digits =>
    cases h
    rfl

/-- No second sign follows the first one: there is a digit or a point. -/
theorem head?_after_sign (t : NumberText) {c : Char}
    (h : (t.whole ++ (fractionChars t.fraction ++ exponentChars t.exponent)).head? = some c) : c ≠ '-' ∧ c ≠ '+' := by
  have hdigit := t.isDigit_whole
  have hne := t.digits_ne_nil
  cases hwhole : t.whole with
  | cons d ds =>
    rw [hwhole] at h hdigit
    cases h
    exact Numeral.ne_sign_of_isDigit (hdigit c List.mem_cons_self)
  | nil =>
    rw [hwhole] at h hne
    cases hfraction : t.fraction with
    | none =>
      rw [hfraction] at hne
      exact absurd rfl hne
    | some digits =>
      rw [hfraction] at h
      cases h
      decide

/-- **A written number is taken apart into its parts.** -/
theorem scan?_chars (t : NumberText) : Numeral.scan? t.chars = some t.numeral := by
  obtain ⟨htake, hdrop⟩ := Numeral.span_digits t.isDigit_whole
    (fun c (hc : (fractionChars t.fraction ++ exponentChars t.exponent).head? = some c) => head?_fractionChars_append hc)
  have hsign := Numeral.sign_chars t.sign (fun c hc => t.head?_after_sign hc)
  have hfraction := Numeral.fractionPart_fractionChars t.isDigit_fraction t.exponent
  have hdigits : ¬ (t.whole = [] ∧ t.fraction.getD [] = []) := fun h => t.digits_ne_nil (by rw [h.1, h.2]; rfl)
  unfold Numeral.scan? chars
  simp only [hsign, htake, hdrop, hfraction, Numeral.exponentPart?_exponentChars t.exponent_le]
  rw [if_neg hdigits]
  rfl

/-- **Whatever is taken apart is a written number with these parts.** -/
theorem exists_of_scan? {cs : List Char} {n : Numeral} (h : Numeral.scan? cs = some n) :
    ∃ t : NumberText, t.chars = cs ∧ t.numeral = n := by
  obtain ⟨m, hsign, hnegative⟩ := Numeral.exists_signMark cs
  unfold Numeral.scan? at h
  simp only at h
  obtain ⟨fraction, hfraction, hdigits, hisDigit⟩ :=
    Numeral.exists_fraction ((Numeral.sign cs).2.dropWhile Char.isDigit)
  split at h
  · rename_i number hnumber
    obtain ⟨exponent, hexponent, rfl, hle⟩ := Numeral.exists_exponent hnumber
    split at h
    · cases h
    · rename_i hne
      cases h
      rw [← hdigits] at hne
      refine ⟨⟨m, (Numeral.sign cs).2.takeWhile Char.isDigit, fraction, exponent, fun c hc => List.mem_takeWhile_imp hc,
        hisDigit, by simpa using hne, hle⟩, ?_, ?_⟩
      · simp only [chars]
        rw [hexponent, hfraction, List.takeWhile_append_dropWhile, hsign]
      · simp only [numeral, exponentNumber, hnegative, hdigits]
  · cases h

end NumberText

/-! ## The number that is read -/

namespace Numeral

theorem value_toDecimal (n : Numeral) : n.toDecimal.value =
    (if n.negative then -(digitsValue (n.whole ++ n.fraction) : ℚ) else digitsValue (n.whole ++ n.fraction)) *
      10 ^ (n.exponent - n.fraction.length) := by
  unfold toDecimal
  simp only
  split
  · rename_i hscale
    have hpow : (10 : ℚ) ^ (n.exponent - n.fraction.length) = (10 ^ (n.fraction.length - n.exponent).toNat)⁻¹ := by
      rw [← zpow_natCast, Int.toNat_of_nonneg hscale, ← zpow_neg, Int.neg_sub]
    rw [Decimal.value_normalize, hpow, div_eq_mul_inv]
    split <;> simp
  · rename_i hscale
    have hpow : (10 : ℚ) ^ (n.exponent - n.fraction.length) = 10 ^ (n.fraction.length - n.exponent).natAbs := by
      rw [← zpow_natCast]
      congr 1
      omega
    rw [Decimal.value_normalize, hpow]
    push_cast
    rw [Decimal.cast_tenPow]
    split <;> simp

theorem scale_toDecimal_le (n : Numeral) : (n.toDecimal.scale : Int) ≤ max 0 (n.fraction.length - n.exponent) := by
  unfold toDecimal
  simp only
  split
  · have := Decimal.scale_normalize_le
      (if n.negative then -(digitsValue (n.whole ++ n.fraction) : Int) else digitsValue (n.whole ++ n.fraction))
      (n.fraction.length - n.exponent).toNat
    omega
  · have := Decimal.scale_normalize_le
      ((if n.negative then -(digitsValue (n.whole ++ n.fraction) : Int) else digitsValue (n.whole ++ n.fraction)) *
        Decimal.tenPow (n.fraction.length - n.exponent).natAbs) 0
    omega

end Numeral

namespace NumberText

theorem value_toDecimal (t : NumberText) : t.numeral.toDecimal.value = t.value := by
  have hsign : (if t.sign.negative then -(Numeral.digitsValue (t.whole ++ t.fraction.getD []) : ℚ)
      else Numeral.digitsValue (t.whole ++ t.fraction.getD [])) =
        t.sign.factor * Numeral.digitsValue (t.whole ++ t.fraction.getD []) := by
    exact_mod_cast t.sign.ite_negative (Numeral.digitsValue (t.whole ++ t.fraction.getD []))
  rw [Numeral.value_toDecimal]
  unfold numeral value
  simp only [hsign]

theorem length_fraction_le (t : NumberText) : (t.fraction.getD []).length ≤ t.text.length := by
  unfold text chars
  cases t.fraction with
  | none => simp
  | some digits =>
    simp [fractionChars]
    omega

theorem parse_text (t : NumberText) : Decimal.parse t.text = .ok t.numeral.toDecimal := by
  unfold Decimal.parse Decimal.ofText? text
  rw [String.toList_ofList, scan?_chars]
  rfl

theorem exists_of_parse {text : String} {d : Decimal} (h : Decimal.parse text = .ok d) :
    ∃ t : NumberText, t.text = text := by
  unfold Decimal.parse Decimal.ofText? at h
  cases hscan : Numeral.scan? text.toList with
  | none =>
    rw [hscan] at h
    cases h
  | some n =>
    obtain ⟨t, hchars, -⟩ := exists_of_scan? hscan
    refine ⟨t, ?_⟩
    unfold NumberText.text
    rw [hchars, String.ofList_toList]

end NumberText

/-- **Exactly the written numbers are read, each as the number that it denotes.**  The scale of what is read from a text
that is not overlong fits in 32 bits. -/
theorem Decimal.parse_reads_numberTexts (text : String) :
    ((∃ d, parse text = .ok d) ↔ ∃ t : NumberText, t.text = text) ∧
    (∀ (t : NumberText) (d : Decimal), t.text = text → parse text = .ok d → d.Normal ∧ d.value = t.value) ∧
    (text.length < 2 ^ 31 → ∀ d, parse text = .ok d → d.scale ≤ maxScale) := by
  refine ⟨⟨?_, ?_⟩, ?_, ?_⟩
  · rintro ⟨d, hd⟩
    exact NumberText.exists_of_parse hd
  · rintro ⟨t, rfl⟩
    exact ⟨_, t.parse_text⟩
  · rintro t d rfl hd
    refine ⟨(Obtained.parse hd).normal, ?_⟩
    rw [t.parse_text] at hd
    cases hd
    exact t.value_toDecimal
  · intro hlength d hd
    obtain ⟨t, rfl⟩ := NumberText.exists_of_parse hd
    rw [t.parse_text] at hd
    cases hd
    have hscale : (t.numeral.toDecimal.scale : Int) ≤ max 0 ((t.fraction.getD []).length - t.exponentNumber) :=
      t.numeral.scale_toDecimal_le
    have hfraction := t.length_fraction_le
    have hexponent : t.exponentNumber.natAbs ≤ 100000 := t.exponent_le
    unfold maxScale
    omega

/-- The text `+.50e-01`. -/
def NumberText.halfTenth : NumberText where
  sign := .plus
  whole := []
  fraction := some ['5', '0']
  exponent := some ⟨'e', .minus, ['0', '1'], .inl rfl, by decide, by simp [Char.isDigit]⟩
  isDigit_whole := by simp
  isDigit_fraction := by simp [Char.isDigit]
  digits_ne_nil := by decide
  exponent_le := by decide

theorem Decimal.parse_reads_halfTenth :
    NumberText.halfTenth.text = "+.50e-01" ∧ parse "+.50e-01" = .ok ⟨5, 2⟩ ∧
      value ⟨5, 2⟩ = NumberText.halfTenth.value ∧ scale ⟨5, 2⟩ ≤ maxScale := by
  have htext : NumberText.halfTenth.text = "+.50e-01" := by rfl
  have hparse : parse "+.50e-01" = .ok ⟨5, 2⟩ := by rfl
  obtain ⟨-, hvalue, hscale⟩ := parse_reads_numberTexts "+.50e-01"
  exact ⟨htext, hparse, (hvalue _ _ htext hparse).2, hscale (by decide) _ hparse⟩

end LooseExpr
