import LooseExpr.Coercion
import LooseExpr.Proofs.Decimal.Normal
import Mathlib.Data.List.TakeWhile
/-!
# Reading a decimal back

The text of a decimal has a plain shape: a sign only if it is negative, digits, and a point with more digits only if
there are any (`Decimal.toChars_eq`).  The scanner takes such a text apart into just these parts
(`Numeral.scan?_plain`), and their number is the decimal again if it was normal (`Decimal.ofText?_toText`).  No blank
stands in the text, so the coercion of texts to numbers, which trims, reads it too.
-/
namespace LooseExpr

namespace Numeral

/-- The point with the digits after it; without digits there is no point. -/
def pointed : List Char → List Char
  | [] => []
  | c :: cs => '.' :: c :: cs

/-- The sign of a plain text. -/
def signChars (negative : Bool) : List Char := if negative then ['-'] else []

theorem sign_digit {c : Char} (h : c.isDigit = true) (cs : List Char) : sign (c :: cs) = (false, c :: cs) := by
  unfold sign
  split
  · rename_i heq
    cases heq
    cases h
  · rename_i heq
    cases heq
    cases h
  · rfl

theorem fractionPart_pointed {fraction : List Char} (h : ∀ c ∈ fraction, c.isDigit = true) :
    fractionPart (pointed fraction) = (fraction, []) := by
  cases fraction with
  | nil => rfl
  | cons c cs =>
    simp only [pointed, fractionPart]
    rw [List.takeWhile_eq_self_iff.2 h, List.dropWhile_eq_nil_iff.2 h]

theorem takeWhile_pointed (fraction : List Char) : (pointed fraction).takeWhile Char.isDigit = [] := by
  cases fraction <;> rfl

theorem dropWhile_pointed (fraction : List Char) : (pointed fraction).dropWhile Char.isDigit = pointed fraction := by
  cases fraction <;> rfl

theorem sign_signChars (negative : Bool) {whole : List Char} (hne : whole ≠ [])
    (hw : ∀ c ∈ whole, c.isDigit = true) (rest : List Char) :
    sign (signChars negative ++ (whole ++ rest)) = (negative, whole ++ rest) := by
  cases negative with
  | true => rfl
  | false =>
    cases whole with
    | nil => exact absurd rfl hne
    | cons c cs => exact sign_digit (hw c List.mem_cons_self) (cs ++ rest)

/-- **A plain text is taken apart into its parts**: sign, whole digits and fraction digits. -/
theorem scan?_plain (negative : Bool) {whole fraction : List Char} (hne : whole ≠ [])
    (hw : ∀ c ∈ whole, c.isDigit = true) (hf : ∀ c ∈ fraction, c.isDigit = true) :
    scan? (signChars negative ++ (whole ++ pointed fraction)) = some ⟨negative, whole, fraction, 0⟩ := by
  unfold scan?
  rw [sign_signChars negative hne hw]
  simp only [List.takeWhile_append_of_pos hw, List.dropWhile_append_of_pos hw, takeWhile_pointed, dropWhile_pointed,
    fractionPart_pointed hf, exponentPart?, List.append_nil]
  rw [if_neg (fun h => hne h.1)]

end Numeral

namespace Decimal

/-- The digits before the point. -/
def wholeChars (digits : List Char) (scale : Nat) : List Char :=
  if scale < digits.length then digits.take (digits.length - scale) else ['0']

/-- The digits after the point. -/
def fractionChars (digits : List Char) (scale : Nat) : List Char :=
  if scale < digits.length then digits.drop (digits.length - scale)
  else List.replicate (scale - digits.length) '0' ++ digits

theorem length_fractionChars (digits : List Char) (scale : Nat) : (fractionChars digits scale).length = scale := by
  unfold fractionChars
  split
  · rw [List.length_drop]
    omega
  · rw [List.length_append, List.length_replicate]
    omega

theorem pointed_of_length_pos {cs : List Char} (h : 0 < cs.length) : Numeral.pointed cs = '.' :: cs := by
  cases cs with
  | nil => exact absurd h (Nat.lt_irrefl 0)
  | cons c cs => rfl

theorem withPoint_eq {digits : List Char} (hne : digits ≠ []) (scale : Nat) :
    withPoint digits scale = wholeChars digits scale ++ Numeral.pointed (fractionChars digits scale) := by
  have hlen := length_fractionChars digits scale
  have hpos : 0 < digits.length := List.length_pos_iff.2 hne
  unfold withPoint
  by_cases hscale : scale = 0
  · subst hscale
    rw [if_pos rfl, List.length_eq_zero_iff.1 hlen]
    simp [wholeChars, hpos, Numeral.pointed]
  · rw [if_neg hscale, pointed_of_length_pos (by omega)]
    unfold wholeChars fractionChars
    by_cases hlt : scale < digits.length
    · rw [if_pos hlt, if_pos hlt, if_pos hlt]
    · rw [if_neg hlt, if_neg hlt, if_neg hlt]
      rfl

theorem wholeChars_ne_nil (digits : List Char) (scale : Nat) : wholeChars digits scale ≠ [] := by
  unfold wholeChars
  split
  · intro h
    have := congrArg List.length h
    rw [List.length_take, List.length_nil] at this
    omega
  · exact List.cons_ne_nil _ _

/-- **The digits on both sides of the point have the value of the digits there were.** -/
theorem digitsValue_parts (digits : List Char) (scale : Nat) :
    Numeral.digitsValue (wholeChars digits scale ++ fractionChars digits scale) = Numeral.digitsValue digits := by
  unfold Numeral.digitsValue wholeChars fractionChars
  split
  · rw [List.take_append_drop]
  · rw [Nat.ofDigitChars_append, Nat.ofDigitChars_append, Nat.ofDigitChars_cons, Nat.ofDigitChars_nil,
      Nat.ofDigitChars_replicate_zero]
    rfl

theorem isDigit_wholeChars {digits : List Char} (h : ∀ c ∈ digits, c.isDigit = true) (scale : Nat) :
    ∀ c ∈ wholeChars digits scale, c.isDigit = true := by
  unfold wholeChars
  split
  · exact fun c hc => h c (List.mem_of_mem_take hc)
  · intro c hc
    rw [List.mem_singleton.1 hc]
    rfl

theorem isDigit_fractionChars {digits : List Char} (h : ∀ c ∈ digits, c.isDigit = true) (scale : Nat) :
    ∀ c ∈ fractionChars digits scale, c.isDigit = true := by
  unfold fractionChars
  split
  · exact fun c hc => h c (List.mem_of_mem_drop hc)
  · intro c hc
    rcases List.mem_append.1 hc with hc | hc
    · rw [List.eq_of_mem_replicate hc]
      rfl
    · exact h c hc

/-- The digits of the mantissa, without its sign. -/
def magnitudeChars (d : Decimal) : List Char := Nat.toDigits 10 d.mantissa.natAbs

theorem isDigit_magnitudeChars (d : Decimal) : ∀ c ∈ d.magnitudeChars, c.isDigit = true :=
  fun _ hc => Nat.isDigit_of_mem_toDigits (by decide) (by decide) hc

/-- **The shape of a decimal's text.** -/
theorem toChars_eq (d : Decimal) :
    d.toChars = Numeral.signChars (d.mantissa < 0) ++
      (wholeChars d.magnitudeChars d.scale ++ Numeral.pointed (fractionChars d.magnitudeChars d.scale)) := by
  have hne : d.magnitudeChars ≠ [] := Nat.toDigits_ne_nil
  unfold toChars
  simp only
  rw [show Nat.toDigits 10 d.mantissa.natAbs = d.magnitudeChars from rfl, withPoint_eq hne]
  by_cases h : d.mantissa < 0
  · simp [Numeral.signChars, h]
  · simp [Numeral.signChars, h]

theorem scan?_toChars (d : Decimal) :
    Numeral.scan? d.toChars =
      some ⟨d.mantissa < 0, wholeChars d.magnitudeChars d.scale, fractionChars d.magnitudeChars d.scale, 0⟩ := by
  rw [toChars_eq]
  exact Numeral.scan?_plain _ (wholeChars_ne_nil _ _) (isDigit_wholeChars d.isDigit_magnitudeChars _)
    (isDigit_fractionChars d.isDigit_magnitudeChars _)

/-- **A normal decimal is read back from its text.** -/
theorem ofText?_toText {d : Decimal} (h : d.Normal) : ofText? d.toText = some d := by
  unfold ofText? toText
  rw [String.toList_ofList, scan?_toChars, Option.map_some]
  congr 1
  unfold Numeral.toDecimal
  simp only [digitsValue_parts, length_fractionChars]
  have hvalue : Numeral.digitsValue d.magnitudeChars = d.mantissa.natAbs := Nat.ofDigitChars_ten_toDigits
  have hsign : (if d.mantissa < 0 then -(d.mantissa.natAbs : Int) else d.mantissa.natAbs) = d.mantissa := by
    split <;> omega
  rw [hvalue]
  simp only [decide_eq_true_eq, hsign, Int.sub_zero, Int.natCast_nonneg, if_true, Int.toNat_natCast]
  exact normalize_eq_self h

end Decimal

/-! ## Blanks -/

namespace Text

theorem trimChars_eq_self {cs : List Char} (h : ∀ c ∈ cs, isBlank c = false) : trimChars cs = cs := by
  have hkeep : ∀ l : List Char, (∀ c ∈ l, isBlank c = false) → l.dropWhile isBlank = l := fun l hl =>
    List.dropWhile_eq_self_iff.2 (fun hpos => by rw [hl _ (List.getElem_mem hpos)]; exact Bool.false_ne_true)
  unfold trimChars
  rw [hkeep cs h, hkeep cs.reverse (fun c hc => h c (List.mem_reverse.1 hc)), List.reverse_reverse]

theorem isBlank_digit {c : Char} (h : c.isDigit = true) : isBlank c = false := by
  rw [Char.isDigit_iff_toNat] at h
  obtain ⟨hlow, hhigh⟩ := h
  have h48 : 48 ≤ c.toNat := hlow
  have h57 : c.toNat ≤ 57 := hhigh
  unfold isBlank
  simp only [Bool.or_eq_false_iff, Bool.and_eq_false_iff, beq_eq_false_iff_ne, decide_eq_false_iff_not]
  omega

end Text

namespace Decimal

theorem isBlank_pointed {cs : List Char} (h : ∀ c ∈ cs, c.isDigit = true) :
    ∀ c ∈ Numeral.pointed cs, Text.isBlank c = false := by
  cases cs with
  | nil => exact fun c hc => absurd hc List.not_mem_nil
  | cons c cs =>
    intro x hx
    rcases List.mem_cons.1 hx with rfl | hx
    · rfl
    · exact Text.isBlank_digit (h x hx)

theorem isBlank_signChars (negative : Bool) : ∀ c ∈ Numeral.signChars negative, Text.isBlank c = false := by
  intro c hc
  cases negative with
  | true =>
    rw [List.mem_singleton.1 hc]
    rfl
  | false => exact absurd hc List.not_mem_nil

theorem isBlank_toChars (d : Decimal) : ∀ c ∈ d.toChars, Text.isBlank c = false := by
  intro c hc
  rw [toChars_eq] at hc
  rcases List.mem_append.1 hc with hc | hc
  · exact isBlank_signChars _ c hc
  rcases List.mem_append.1 hc with hc | hc
  · exact Text.isBlank_digit (isDigit_wholeChars d.isDigit_magnitudeChars _ c hc)
  · exact isBlank_pointed (isDigit_fractionChars d.isDigit_magnitudeChars _) c hc

theorem trim_toText (d : Decimal) : Text.trim d.toText = d.toText := by
  unfold Text.trim toText
  rw [String.toList_ofList, Text.trimChars_eq_self d.isBlank_toChars]

/-- **The text of a normal decimal stands for the decimal.** -/
theorem decimal?_toText {d : Decimal} (h : d.Normal) : Text.decimal? d.toText = some d := by
  unfold Text.decimal?
  rw [trim_toText, ofText?_toText h]

/-- A whole number is written as everywhere. -/
theorem toText_ofInt (n : Int) : (ofInt n).toText = toString n := by
  unfold toText toChars
  simp only [ofInt, withPoint, if_true]
  rw [Int.toString_eq_repr, Int.repr_eq_if]
  by_cases h : n < 0
  · have hneg : ¬ (0 ≤ n) := by omega
    have hnat : (-n).toNat = n.natAbs := by omega
    rw [if_pos h, if_neg hneg, hnat, Nat.repr_eq_ofList_toDigits, ← String.toList_inj]
    simp
  · have hpos : 0 ≤ n := by omega
    have hnat : n.toNat = n.natAbs := by omega
    rw [if_neg h, if_pos hpos, hnat, Nat.repr_eq_ofList_toDigits]

end Decimal

end LooseExpr
